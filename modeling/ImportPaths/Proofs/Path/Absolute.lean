import ImportPaths.Proofs.Path.Clean

/-!
# Absolute paths

A path is absolute exactly when the root is among its components (`isAbsolute_iff`), and a path as
seen from an absolute directory is absolute and clean (`isAbsolute_anchor`, `isClean_anchor`).  A
cleaned absolute path is the root and names, and steps up from there take names away until only the
root is left (`collapse_up_of_isAbsolute`); so nothing on the way is lost but names, which is what
makes the way back from a place to a directory always exist.
-/

namespace ImportPaths.Path

variable {p q : Path}

/-! ## Clean paths -/

/-- Cleaning changes none of the components. -/
def IsClean (p : Path) : Prop := p.clean.components = p.components

instance (p : Path) : Decidable p.IsClean := inferInstanceAs (Decidable (_ = _))

/-- A path as seen from a directory is clean. -/
theorem isClean_anchor (p cwd : Path) : (p.anchor cwd).IsClean := by
  rw [IsClean, anchor, clean_clean]

/-- Whether `p` lies strictly below `base`, component by component. -/
def IsBelow (p base : Path) : Prop :=
  base.components <+: p.components ∧ p.components ≠ base.components

instance (p base : Path) : Decidable (p.IsBelow base) := inferInstanceAs (Decidable (_ ∧ _))

/-! ## The root among the components -/

/-- The root is no step. -/
theorem root_not_mem_steps (t : List Char) : .root ∉ steps t := by
  intro h
  rcases isStep_of_mem_steps h with h | ⟨s, h, -⟩ <;> cases h

theorem isAbsolute_iff : p.isAbsolute = true ↔ .root ∈ p.components := by
  constructor
  · intro h
    have hlead : lead p.chars = [.root] := by rw [lead, if_pos (eq_of_beq h)]
    rw [components_eq, hlead]
    exact List.mem_cons_self
  · intro h
    by_contra hnot
    rw [components_eq] at h
    rcases lead_of_not_isAbsolute (by simpa using hnot) with hl | hl <;>
      simp [hl, root_not_mem_steps] at h

theorem chars_ne_nil_of_isAbsolute (h : p.isAbsolute = true) : p.chars ≠ [] := by
  intro hnil
  rw [isAbsolute, hnil] at h
  cases h

/-- Something is always left of an absolute path. -/
theorem components_clean_of_isAbsolute (h : p.isAbsolute = true) :
    p.clean.components = collapse p.components := by
  obtain ⟨names, -, hnames⟩ := collapse_of_isAbsolute h
  exact components_clean_of_ne_nil (by simp [hnames])

/-- What is left of it is the root and names. -/
theorem exists_components_clean_eq (h : p.isAbsolute = true) :
    ∃ names : List Segment, p.clean.components = .root :: names.map .name := by
  obtain ⟨names, -, hnames⟩ := collapse_of_isAbsolute h
  exact ⟨names, by rw [components_clean_of_isAbsolute h, hnames]⟩

theorem isAbsolute_clean (h : p.isAbsolute = true) : p.clean.isAbsolute = true := by
  obtain ⟨names, hnames⟩ := exists_components_clean_eq h
  rw [isAbsolute_iff, hnames]
  exact List.mem_cons_self

theorem isAbsolute_of_mem_clean (h : .root ∈ p.clean.components) : p.isAbsolute = true := by
  rcases components_clean p with hc | ⟨-, hc⟩
  · rw [hc] at h
    exact isAbsolute_iff.2 (mem_of_mem_collapse h)
  · simp [hc] at h

theorem isAbsolute_join (h : p.isAbsolute = true) (q : Path) : (p.join q).isAbsolute = true := by
  have hne := chars_ne_nil_of_isAbsolute h
  rw [join]
  split
  · rename_i hq
    simpa [hne] using hq
  · split <;> rw [isAbsolute, List.head?_append_of_ne_nil _ hne] <;> exact h

/-- A path as seen from an absolute directory is absolute. -/
theorem isAbsolute_anchor (p : Path) {cwd : Path} (h : cwd.isAbsolute = true) :
    (p.anchor cwd).isAbsolute = true :=
  isAbsolute_clean (isAbsolute_join h p)

/-- What is joined to a path makes it absolute only by being absolute itself. -/
theorem isAbsolute_of_join (hq : q.isAbsolute = false) (h : .root ∈ (p.join q).clean.components) :
    p.isAbsolute = true := by
  rw [components_clean_of_isAbsolute (isAbsolute_of_mem_clean h), collapse_join hq] at h
  have hmem := mem_of_mem_collapse h
  rw [List.mem_append, or_iff_left (root_not_mem_steps _)] at hmem
  exact isAbsolute_iff.2 hmem

/-! ## Steps up -/

/-- From an absolute path, steps up take at most as many names away, and nothing else. -/
theorem collapse_up_of_isAbsolute (h : p.isAbsolute = true) (n : Nat) :
    ∃ front back : List Segment, back.length ≤ n ∧
      p.clean.components = .root :: (front ++ back).map .name ∧
      collapse (p.components ++ List.replicate n .up) = .root :: front.map .name := by
  induction n with
  | zero =>
    obtain ⟨names, -, hnames⟩ := collapse_of_isAbsolute h
    refine ⟨names, [], by simp, ?_, by simp [hnames]⟩
    rw [components_clean_of_isAbsolute h, hnames, List.append_nil]
  | succ n ih =>
    obtain ⟨front, back, hlength, hclean, hup⟩ := ih
    have hstep : collapse (p.components ++ List.replicate (n + 1) .up) =
        collapse (.root :: front.map .name ++ [.up]) := by
      rw [← hup, collapse_collapse_append, List.append_assoc, List.replicate_succ']
    rcases List.eq_nil_or_concat front with rfl | ⟨front, s, rfl⟩
    · exact ⟨[], back, by omega, hclean, hstep⟩
    · refine ⟨front, s :: back, by simpa using hlength, by simpa using hclean, ?_⟩
      calc collapse (p.components ++ List.replicate (n + 1) .up)
          = collapse (.root :: front.map .name ++ [s].map .name ++
              (List.replicate [s].length .up ++ [])) := by simp [hstep]
        _ = collapse ([.root] ++ front.map .name) := by
            rw [collapse_names_up, List.append_nil, List.singleton_append]
        _ = .root :: front.map .name := by
            rw [collapse_append_names]
            rfl

end ImportPaths.Path
