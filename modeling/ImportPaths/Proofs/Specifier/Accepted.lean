import ImportPaths.Proofs.Specifier.RoundTrip

/-!
# Which relative specifiers have a subpath

`aliasSubpath?` asks two things of a relative specifier: of its text, that nothing but plain
segments follows the marks, and of the place it names, that it lies strictly below the root.
`Unmarked` says which marks are taken away without looking at how that is done
(`stripMarks_eq_iff`).  Below an absolute root an absolute place has names only
(`exists_names_of_isBelow`), so there is nothing else that could stand in the way, and no specifier
leads to the root itself or out of it, however far it climbs (`aliasSubpath?_isSome_iff`).
-/

namespace ImportPaths

open ImportPaths.Path

variable {dir root : Path} {relative rest subpath : List Char}

/-! ## Marks -/

/-- `rest` is what is left of a specifier when one `./` is taken away from its front, or else every
`../`. -/
def Unmarked (relative rest : List Char) : Prop :=
  relative = sameMark ++ rest ∨
    ¬sameMark <+: relative ∧ ¬upMark <+: rest ∧
      ∃ n, relative = (List.replicate n upMark).flatten ++ rest

theorem stripMarks_eq_iff : stripMarks relative = rest ↔ Unmarked relative rest := by
  rw [stripMarks, Unmarked]
  split
  · rename_i t ht
    obtain rfl := Text.append_eq_of_isPrefixOf? ht
    simp [eq_comm]
  · rename_i hnone
    have hsame : ¬sameMark <+: relative := by
      rintro ⟨t, rfl⟩
      rw [List.isPrefixOf?_eq_some_iff_append_eq.2 rfl] at hnone
      cases hnone
    have hnot : relative ≠ sameMark ++ rest := fun h => hsame ⟨rest, h.symm⟩
    rw [or_iff_right hnot, and_iff_right hsame]
    constructor
    · rintro rfl
      exact ⟨Form.not_upMark_prefix_countUp relative, _, (Form.countUp_eq relative).symm⟩
    · rintro ⟨hrest, n, rfl⟩
      have hzero := Form.countUp_eq_zero_iff.2 hrest
      have hkept := Form.countUp_eq rest
      rw [hzero, List.replicate_zero, List.flatten_nil, List.nil_append] at hkept
      rw [Form.countUp_upMarks, hkept]

theorem isTranslatable_iff :
    IsTranslatable relative ↔ ∃ rest, Unmarked relative rest ∧
      (isPlainSubpath rest = true ∨ rest = [] ∧ relative ≠ []) := by
  simp only [← stripMarks_eq_iff, exists_eq_left', IsTranslatable]
  exact or_comm

/-! ## Places below the root -/

/-- Something is left of a path below its base. -/
theorem Path.isBelow_iff {p base : Path} :
    p.IsBelow base ↔ ∃ below, below ≠ [] ∧ p.components = base.components ++ below := by
  constructor
  · rintro ⟨⟨below, hbelow⟩, hne⟩
    refine ⟨below, ?_, hbelow.symm⟩
    rintro rfl
    rw [List.append_nil] at hbelow
    exact hne hbelow.symm
  · rintro ⟨below, hne, hbelow⟩
    rw [IsBelow, hbelow]
    exact ⟨List.prefix_append _ _, by simpa using hne⟩

/-- What lies below an absolute path, and is clean, lies there by names. -/
theorem exists_names_of_isBelow {p : Path} (hp : p.isAbsolute = true) (hr : root.isAbsolute = true)
    (h : p.clean.IsBelow root) :
    ∃ names : List Segment, names ≠ [] ∧
      p.clean.components = root.components ++ names.map .name := by
  obtain ⟨below, hne, hbelow⟩ := isBelow_iff.1 h
  obtain ⟨names, hnames⟩ := exists_components_clean_eq hp
  obtain ⟨front, hfront⟩ : ∃ front, root.components = .root :: front := by
    refine ⟨steps root.chars, ?_⟩
    rw [components_eq, lead, if_pos (eq_of_beq hr), List.singleton_append]
  -- both start at the root of the file system, and behind it the place has names only
  rw [hnames, hfront, List.cons_append] at hbelow
  obtain ⟨_, down, -, -, rfl⟩ := List.map_eq_append_iff.1 (List.cons.inj hbelow).2
  refine ⟨down, by simpa using hne, ?_⟩
  rw [hnames, hbelow, hfront, List.cons_append]

/-! ## What is accepted -/

theorem isBelow_of_aliasSubpath? (h : aliasSubpath? dir relative root = some subpath) :
    (resolveRelative dir relative).IsBelow root := by
  obtain ⟨-, names, hne, hplace, -⟩ := aliasSubpath?_eq_some_iff.1 h
  exact isBelow_iff.2 ⟨names.map .name, by simpa using hne, hplace⟩

/-- From an absolute directory, a relative specifier has a subpath under an absolute root exactly
when its text can be translated and the place it names lies strictly below the root. -/
theorem aliasSubpath?_isSome_iff (hd : dir.isAbsolute = true) (hr : root.isAbsolute = true) :
    (aliasSubpath? dir relative root).isSome = true ↔
      IsTranslatable relative ∧ (resolveRelative dir relative).IsBelow root := by
  rw [Option.isSome_iff_exists]
  constructor
  · rintro ⟨subpath, h⟩
    exact ⟨(aliasSubpath?_eq_some_iff.1 h).1, isBelow_of_aliasSubpath? h⟩
  · rintro ⟨ht, hbelow⟩
    obtain ⟨names, hne, hplace⟩ := exists_names_of_isBelow (isAbsolute_join hd _) hr hbelow
    exact ⟨_, aliasSubpath?_eq_some_iff.2 ⟨ht, names, hne, hplace, rfl⟩⟩

end ImportPaths
