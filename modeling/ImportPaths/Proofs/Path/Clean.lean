import ImportPaths.Proofs.Path.Components

/-!
# Resolving `.` and `..`

Cleaning pushes the components of a path on a stack.  What is left on the stack is `Settled`: each
component stays when it is pushed again.  From this one invariant follow that resolving a front
first changes nothing (`collapse_collapse_append`), that a front of something resolved is resolved
(`collapse_eq_self_of_prefix`), and that a cleaned path means what the path meant
(`collapse_components_clean`, `clean_clean`).
-/

namespace ImportPaths.Path

/-! ## Settled stacks -/

/-- A stack, last component first, on which each component stays when it is pushed again. -/
def Settled : List Component → Prop
  | [] => True
  | c :: st => pushComponent st c = c :: st ∧ Settled st

/-- A push keeps the stack, takes its top away, or puts the component on top. -/
theorem pushComponent_cases (st : List Component) (c : Component) :
    pushComponent st c = st ∨ (∃ d, st = d :: pushComponent st c) ∨
      pushComponent st c = c :: st := by
  cases c with
  | root => exact Or.inr (Or.inr rfl)
  | here => exact Or.inl rfl
  | name s => exact Or.inr (Or.inr rfl)
  | up =>
    cases st with
    | nil => exact Or.inr (Or.inr rfl)
    | cons d st =>
      cases d with
      | root => exact Or.inl rfl
      | here => exact Or.inr (Or.inr rfl)
      | up => exact Or.inr (Or.inr rfl)
      | name s => exact Or.inr (Or.inl ⟨_, rfl⟩)

theorem Settled.push {st : List Component} (h : Settled st) (c : Component) :
    Settled (pushComponent st c) := by
  rcases pushComponent_cases st c with hp | ⟨d, hd⟩ | hp
  · rw [hp]
    exact h
  · rw [hd] at h
    exact h.2
  · rw [hp]
    exact ⟨hp, h⟩

theorem Settled.foldl {st : List Component} (h : Settled st) (cs : List Component) :
    Settled (cs.foldl pushComponent st) := by
  induction cs generalizing st with
  | nil => exact h
  | cons c cs ih => exact ih (h.push c)

theorem settled_foldl (cs : List Component) : Settled (cs.foldl pushComponent []) :=
  Settled.foldl (show Settled [] from trivial) cs

theorem Settled.of_append {st st' : List Component} (h : Settled (st ++ st')) : Settled st' := by
  induction st with
  | nil => exact h
  | cons c st ih => exact ih h.2

/-- Pushing a settled stack again, from the bottom up, gives it back. -/
theorem Settled.foldl_reverse {st : List Component} (h : Settled st) :
    st.reverse.foldl pushComponent [] = st := by
  induction st with
  | nil => rfl
  | cons c st ih =>
    rw [List.reverse_cons, List.foldl_append, ih h.2, List.foldl_cons, List.foldl_nil]
    exact h.1

/-- Above a name a settled stack holds no `..`. -/
theorem Settled.above_name {st st' : List Component} {s : Segment}
    (h : Settled (st ++ .name s :: st')) (hsteps : ∀ k ∈ st, IsStep k) :
    ∃ names : List Segment, st = names.map .name := by
  induction st with
  | nil => exact ⟨[], rfl⟩
  | cons c st ih =>
    obtain ⟨names, rfl⟩ := ih h.2 fun k hk => hsteps k (List.mem_cons_of_mem _ hk)
    rcases hsteps c List.mem_cons_self with rfl | ⟨t, rfl, -⟩
    · -- a step up would have taken the name below it away
      have hlength := congrArg List.length h.1
      cases names <;> simp [pushComponent] at hlength <;> omega
    · exact ⟨t :: names, rfl⟩

/-! ## Resolving a list of components -/

theorem foldl_collapse (cs : List Component) :
    (collapse cs).foldl pushComponent [] = cs.foldl pushComponent [] :=
  (settled_foldl cs).foldl_reverse

/-- The front of a list may be resolved first. -/
theorem collapse_collapse_append (cs ds : List Component) :
    collapse (collapse cs ++ ds) = collapse (cs ++ ds) := by
  rw [collapse, List.foldl_append, foldl_collapse, ← List.foldl_append, ← collapse]

theorem collapse_append_congr {cs ds : List Component} (h : collapse cs = collapse ds)
    (es : List Component) : collapse (cs ++ es) = collapse (ds ++ es) := by
  rw [← collapse_collapse_append cs, h, collapse_collapse_append]

theorem collapse_collapse (cs : List Component) : collapse (collapse cs) = collapse cs := by
  simpa using collapse_collapse_append cs []

/-- What stands at the front of a resolved list is resolved. -/
theorem collapse_eq_self_of_prefix {cs ds : List Component} (h : cs <+: collapse ds) :
    collapse cs = cs := by
  obtain ⟨es, hes⟩ := h
  have hset : Settled (es.reverse ++ cs.reverse) := by
    rw [← List.reverse_append, hes, collapse, List.reverse_reverse]
    exact settled_foldl ds
  have hfold := hset.of_append.foldl_reverse
  rw [List.reverse_reverse] at hfold
  rw [collapse, hfold, List.reverse_reverse]

/-- Names are pushed as they are. -/
theorem foldl_names (names : List Segment) (st : List Component) :
    (names.map Component.name).foldl pushComponent st =
      (names.map Component.name).reverse ++ st := by
  induction names generalizing st with
  | nil => rfl
  | cons s names ih =>
    rw [List.map_cons, List.foldl_cons, ih, List.reverse_cons, List.append_assoc]
    rfl

theorem collapse_append_names (cs : List Component) (names : List Segment) :
    collapse (cs ++ names.map .name) = collapse cs ++ names.map .name := by
  rw [collapse, List.foldl_append, foldl_names, List.reverse_append, List.reverse_reverse,
    ← collapse]

/-- As many steps up as there are names on top of a stack take these names away. -/
theorem foldl_replicate_up (names : List Segment) (st : List Component) :
    (List.replicate names.length Component.up).foldl pushComponent (names.map .name ++ st) =
      st := by
  induction names with
  | nil => rfl
  | cons s names ih =>
    rw [List.length_cons, List.replicate_succ, List.foldl_cons, List.map_cons, List.cons_append]
    exact ih

/-- Going down some names and up again leads back. -/
theorem collapse_names_up (cs ds : List Component) (names : List Segment) :
    collapse (cs ++ names.map .name ++ (List.replicate names.length .up ++ ds)) =
      collapse (cs ++ ds) := by
  have hback : (List.replicate names.length Component.up).foldl pushComponent
      ((names.map Component.name).reverse ++ cs.foldl pushComponent []) =
        cs.foldl pushComponent [] := by
    have hlength : names.length = names.reverse.length := List.length_reverse.symm
    rw [← List.map_reverse, hlength]
    exact foldl_replicate_up names.reverse _
  rw [collapse, collapse, List.foldl_append, List.foldl_append, List.foldl_append, foldl_names,
    hback, List.foldl_append]

/-! ## The components that are left -/

theorem mem_foldl_pushComponent {c : Component} {cs st : List Component}
    (h : c ∈ cs.foldl pushComponent st) : c ∈ st ∨ c ∈ cs := by
  induction cs generalizing st with
  | nil => exact Or.inl h
  | cons d cs ih =>
    rcases ih h with hp | hc
    · rcases pushComponent_cases st d with hd | ⟨e, he⟩ | hd
      · exact Or.inl (hd ▸ hp)
      · exact Or.inl (he ▸ List.mem_cons_of_mem _ hp)
      · rw [hd] at hp
        rcases List.mem_cons.1 hp with rfl | hp
        · exact Or.inr List.mem_cons_self
        · exact Or.inl hp
    · exact Or.inr (List.mem_cons_of_mem _ hc)

/-- Resolving makes up no component. -/
theorem mem_of_mem_collapse {c : Component} {cs : List Component} (h : c ∈ collapse cs) :
    c ∈ cs := by
  rcases mem_foldl_pushComponent (List.mem_reverse.1 h) with hc | hc
  · cases hc
  · exact hc

/-- Above the root a stack holds names only: there is nothing further up to keep. -/
theorem foldl_above_root {names : List Segment} {cs : List Component}
    (hnames : ∀ s ∈ names, IsName s) (hcs : ∀ k ∈ cs, IsStep k) :
    ∃ names' : List Segment, (∀ s ∈ names', IsName s) ∧
      cs.foldl pushComponent (names.map .name ++ [.root]) = names'.map .name ++ [.root] := by
  induction cs generalizing names with
  | nil => exact ⟨names, hnames, rfl⟩
  | cons c cs ih =>
    have hstep : ∃ names' : List Segment, (∀ s ∈ names', IsName s) ∧
        pushComponent (names.map .name ++ [.root]) c = names'.map .name ++ [.root] := by
      rcases hcs c List.mem_cons_self with rfl | ⟨s, rfl, hs⟩
      · cases names with
        | nil => exact ⟨[], hnames, rfl⟩
        | cons s names => exact ⟨names, fun t ht => hnames t (List.mem_cons_of_mem _ ht), rfl⟩
      · refine ⟨s :: names, ?_, rfl⟩
        intro t ht
        rcases List.mem_cons.1 ht with rfl | ht
        · exact hs
        · exact hnames t ht
    obtain ⟨names', hnames', hpush⟩ := hstep
    rw [List.foldl_cons, hpush]
    exact ih hnames' fun k hk => hcs k (List.mem_cons_of_mem _ hk)

/-- A resolved absolute path is the root and names. -/
theorem collapse_of_isAbsolute {p : Path} (h : p.isAbsolute = true) :
    ∃ names : List Segment, (∀ s ∈ names, IsName s) ∧
      collapse p.components = .root :: names.map .name := by
  have hlead : lead p.chars = [.root] := by
    rw [lead, if_pos (eq_of_beq h)]
  obtain ⟨names, hnames, hfold⟩ := foldl_above_root (show ∀ s ∈ [], IsName s by simp)
    (fun k (hk : k ∈ steps p.chars) => isStep_of_mem_steps hk)
  refine ⟨names.reverse, fun s hs => hnames s (List.mem_reverse.1 hs), ?_⟩
  have hroot : p.components.foldl pushComponent [] = names.map .name ++ [.root] := by
    rw [components_eq, hlead]
    exact hfold
  rw [collapse, hroot, List.reverse_append, List.map_reverse]
  rfl

/-- A resolved relative path has no root and no `.`. -/
theorem collapse_of_not_isAbsolute {p : Path} (h : p.isAbsolute = false) :
    ∀ k ∈ collapse p.components, IsStep k := by
  intro k hk
  have hmem := mem_of_mem_collapse hk
  rw [components_eq] at hk hmem
  rcases lead_of_not_isAbsolute h with hl | hl
  · rw [hl, List.singleton_append, collapse_here_cons] at hk
    exact isStep_of_mem_steps (mem_of_mem_collapse hk)
  · rw [hl, List.nil_append] at hmem
    exact isStep_of_mem_steps hmem

/-- Steps up after a list take its end away, or else stay at the end themselves. -/
theorem collapse_up_cases (cs : List Component) (n : Nat) :
    collapse (cs ++ List.replicate n .up) <+: collapse cs ∨
      ∃ ds, collapse (cs ++ List.replicate n .up) = ds ++ [.up] := by
  have hstack (st : List Component) :
      (List.replicate n .up).foldl pushComponent st <:+ st ∨
        ∃ st', (List.replicate n .up).foldl pushComponent st = .up :: st' := by
    induction n with
    | zero => exact Or.inl List.suffix_rfl
    | succ n ih =>
      rw [List.replicate_succ', List.foldl_append, List.foldl_cons, List.foldl_nil]
      rcases ih with ih | ⟨st', ih⟩
      · rcases pushComponent_cases ((List.replicate n .up).foldl pushComponent st) .up with
          hp | ⟨c, hp⟩ | hp
        · rw [hp]
          exact Or.inl ih
        · exact Or.inl ((hp ▸ List.suffix_cons c _).trans ih)
        · exact Or.inr ⟨_, hp⟩
      · rw [ih]
        exact Or.inr ⟨_, rfl⟩
  rw [collapse, List.foldl_append, collapse]
  rcases hstack (cs.foldl pushComponent []) with h | ⟨st', h⟩
  · exact Or.inl (List.reverse_prefix.2 h)
  · right
    rw [h]
    exact ⟨st'.reverse, List.reverse_cons⟩

/-! ## Clean paths -/

theorem clean_congr {p q : Path} (h : collapse p.components = collapse q.components) :
    p.clean = q.clean := by
  rw [clean, h, ← clean]

/-- The components of a clean path are those that are left, or else a single `.`. -/
theorem components_clean (p : Path) :
    p.clean.components = collapse p.components ∨
      collapse p.components = [] ∧ p.clean.components = [.here] := by
  unfold clean
  split
  · rename_i h
    exact Or.inr ⟨h, rfl⟩
  · rename_i hne
    left
    cases habs : p.isAbsolute with
    | true =>
      obtain ⟨names, hnames, h⟩ := collapse_of_isAbsolute habs
      rw [h, components_ofComponents_root]
      intro k hk
      obtain ⟨s, hs, rfl⟩ := List.mem_map.1 hk
      exact isStep_name.2 (hnames s hs)
    | false =>
      have h := collapse_of_not_isAbsolute habs
      obtain ⟨c, cs, hc⟩ := List.exists_cons_of_ne_nil hne
      rw [hc] at h ⊢
      exact components_ofComponents h

/-- Where something is left, a clean path has just that. -/
theorem components_clean_of_ne_nil {p : Path} (h : collapse p.components ≠ []) :
    p.clean.components = collapse p.components := by
  rcases components_clean p with hc | ⟨hc, -⟩
  · exact hc
  · exact absurd hc h

/-- After a name, a resolved path has names only. -/
theorem names_after_name {p : Path} {ds es : List Component} {s : Segment}
    (h : collapse p.components = ds ++ .name s :: es) :
    ∃ names : List Segment, es = names.map .name := by
  cases habs : p.isAbsolute with
  | true =>
    obtain ⟨names, -, hnames⟩ := collapse_of_isAbsolute habs
    rw [hnames] at h
    cases ds with
    | nil => cases h
    | cons d ds =>
      obtain ⟨front, more, -, -, hmore⟩ := List.map_eq_append_iff.1 (List.cons.inj h).2
      obtain ⟨t, names', -, -, hes⟩ := List.map_eq_cons_iff.1 hmore
      exact ⟨names', hes.symm⟩
  | false =>
    have hsteps := collapse_of_not_isAbsolute habs
    have hset : Settled (es.reverse ++ .name s :: ds.reverse) := by
      have hrev : es.reverse ++ .name s :: ds.reverse = (collapse p.components).reverse := by
        simp [h]
      rw [hrev, collapse, List.reverse_reverse]
      exact settled_foldl p.components
    rw [h] at hsteps
    obtain ⟨names, hnames⟩ := hset.above_name (by
      intro k hk
      exact hsteps k (by simp at hk; simp [hk]))
    refine ⟨names.reverse, ?_⟩
    rw [List.map_reverse, ← hnames, List.reverse_reverse]

/-- A directory from which steps up lead below a base lies below it itself. -/
theorem exists_names_below {dir base : Path} {names : List Segment} {n : Nat} (hne : names ≠ [])
    (h : collapse (dir.components ++ List.replicate n .up) =
      base.components ++ names.map .name) :
    ∃ more : List Segment, dir.clean.components = base.components ++ (names ++ more).map .name := by
  rcases List.eq_nil_or_concat names with rfl | ⟨front, s, rfl⟩
  · exact absurd rfl hne
  · rcases collapse_up_cases dir.components n with ⟨es, hes⟩ | ⟨ds, hds⟩
    · have hsplit : collapse dir.components =
          (base.components ++ front.map .name) ++ .name s :: es := by
        simp [← hes, h]
      obtain ⟨more, rfl⟩ := names_after_name hsplit
      refine ⟨more, ?_⟩
      rw [components_clean_of_ne_nil (by simp [hsplit]), hsplit]
      simp
    · have hlast := congrArg List.getLast? (h.symm.trans hds)
      simp at hlast

/-- A clean path names the place that the path named. -/
theorem collapse_components_clean (p : Path) :
    collapse p.clean.components = collapse p.components := by
  rcases components_clean p with h | ⟨h, hdot⟩
  · rw [h, collapse_collapse]
  · rw [h, hdot]
    rfl

theorem clean_clean (p : Path) : p.clean.clean = p.clean :=
  clean_congr (collapse_components_clean p)

/-- Cleaning makes up no name. -/
theorem name_mem_of_mem_clean {p : Path} {s : Segment} (h : .name s ∈ p.clean.components) :
    .name s ∈ p.components := by
  rcases components_clean p with hc | ⟨-, hc⟩
  · rw [hc] at h
    exact mem_of_mem_collapse h
  · rw [hc] at h
    simp at h

end ImportPaths.Path
