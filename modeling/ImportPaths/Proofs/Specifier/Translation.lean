import ImportPaths.Proofs.Path.Clean
import ImportPaths.Proofs.Results
import ImportPaths.Proofs.Specifier.Form

/-!
# The two ways to name a place

`aliasSubpath?_eq_some_iff` and `relativeSpecifier?_eq_some_iff` say what the two translations
answer in terms of components.  From them:

* a translation names the same place (`resolveAlias_of_aliasSubpath?`,
  `resolveRelative_of_relativeSpecifier?`);
* what was made relative becomes exactly the subpath it was made from
  (`aliasSubpath?_of_relativeSpecifier?`).

Neither asks for absolute or clean paths.
-/

namespace ImportPaths

open ImportPaths.Path

variable {dir root : Path} {relative subpath : List Char}

/-! ## Names and plain subpaths -/

theorem Component.name?_eq_some_iff {c : Component} {s : Segment} :
    c.name? = some s ↔ c = .name s := by
  cases c <;> simp [Component.name?]

theorem mapM_name?_eq_some_iff {cs : List Component} {names : List Segment} :
    cs.mapM Component.name? = some names ↔ cs = names.map .name :=
  mapM_eq_some_iff_eq_map Component.name?_eq_some_iff

theorem below?_eq_some_iff {p base : Path} {cs : List Component} :
    p.below? base = some cs ↔ p.components = base.components ++ cs := by
  rw [below?, List.isPrefixOf?_eq_some_iff_append_eq]
  exact eq_comm

theorem names_below_iff {p base : Path} {names : List Segment} :
    (p.below? base).bind (·.mapM Component.name?) = some names ↔
      p.components = base.components ++ names.map .name := by
  rw [Option.bind_eq_some_iff]
  constructor
  · rintro ⟨cs, hcs, hn⟩
    rw [below?_eq_some_iff.1 hcs, mapM_name?_eq_some_iff.1 hn]
  · intro h
    exact ⟨_, below?_eq_some_iff.2 h, mapM_name?_eq_some_iff.2 rfl⟩

/-- A name among the components of a path is one plain segment. -/
theorem isName_of_mem_components {p : Path} {s : Segment} (h : .name s ∈ p.components) :
    IsName s :=
  isStep_name.1 (isStep_of_mem_steps (name_mem_components_iff.1 h))

/-- The names at the end of a path are plain segments. -/
theorem isName_of_components_eq {p : Path} {cs : List Component} {names : List Segment}
    (h : p.components = cs ++ names.map .name) : ∀ s ∈ names, IsName s := by
  intro s hs
  refine isName_of_mem_components (p := p) ?_
  rw [h]
  exact List.mem_append_right _ (List.mem_map_of_mem hs)

/-- A plain subpath is a list of names with slashes between them. -/
theorem isPlainSubpath_iff :
    isPlainSubpath subpath = true ↔
      ∃ names, names ≠ [] ∧ (∀ s ∈ names, IsName s) ∧ subpath = joinSegments names := by
  constructor
  · intro h
    rw [isPlainSubpath, Bool.and_eq_true, List.all_eq_true] at h
    refine ⟨subpath.splitOn '/', List.splitOn_ne_nil _ _, ?_, ?_⟩
    · intro s hs
      exact ⟨h.2 s hs, no_slash_of_mem_splitOn hs⟩
    · exact (List.intercalate_splitOn '/').symm
  · rintro ⟨names, hne, hnames, rfl⟩
    obtain ⟨s, names, rfl⟩ := List.exists_cons_of_ne_nil hne
    have hsplit : (joinSegments (s :: names)).splitOn '/' = s :: names :=
      List.splitOn_intercalate '/' (fun t ht => (hnames t ht).no_slash) hne
    rw [isPlainSubpath, hsplit, Bool.and_eq_true, List.all_eq_true]
    refine ⟨?_, fun t ht => (hnames t ht).plain⟩
    rw [Bool.not_eq_true', List.isEmpty_eq_false_iff]
    intro hnil
    rw [hnil, List.splitOn_nil] at hsplit
    exact (hnames s List.mem_cons_self).ne_nil (List.cons.inj hsplit).1.symm

/-- Names with slashes between them are no absolute path. -/
theorem isAbsolute_joinSegments {names : List Segment} (h : ∀ s ∈ names, IsName s) :
    (⟨joinSegments names⟩ : Path).isAbsolute = false := by
  cases names with
  | nil => rfl
  | cons s names =>
    have hs := h s List.mem_cons_self
    obtain ⟨c, t, rfl⟩ := List.exists_cons_of_ne_nil hs.ne_nil
    have hc : c ≠ '/' := fun hc => hs.no_slash (hc ▸ List.mem_cons_self)
    rw [isAbsolute, joinSegments, List.intercalate_cons_cons_left, List.head?_cons]
    simpa using hc

/-- Joining names to a path, and then resolving, puts the names at its end. -/
theorem collapse_join_names {names : List Segment} (h : ∀ s ∈ names, IsName s) (p : Path) :
    collapse (p.join ⟨joinSegments names⟩).components =
      collapse p.components ++ names.map .name := by
  rw [collapse_join (isAbsolute_joinSegments h), steps_joinSegments_names h, collapse_append_names]

/-- The place of a subpath, component by component. -/
theorem components_resolveAlias {names : List Segment} (hne : names ≠ [])
    (h : ∀ s ∈ names, IsName s) (root : Path) :
    (resolveAlias root (joinSegments names)).components =
      collapse root.components ++ names.map .name := by
  have hres := collapse_join_names h root
  rw [resolveAlias, components_clean_of_ne_nil (by simp [hres, hne]), hres]

/-- A root at the front of a resolved place is resolved itself. -/
theorem components_resolveAlias_of_front {names : List Segment} (hne : names ≠ [])
    (h : ∀ s ∈ names, IsName s)
    (hroot : root.components <+: (resolveAlias root (joinSegments names)).components) :
    (resolveAlias root (joinSegments names)).components = root.components ++ names.map .name := by
  have hfront : root.components <+: collapse (root.components ++ names.map .name) := by
    rw [collapse_append_names, ← components_resolveAlias hne h]
    exact hroot
  rw [components_resolveAlias hne h, collapse_eq_self_of_prefix hfront]

/-! ## Marks -/

/-- Marks are steps up. -/
theorem steps_climb (n : Nat) (t : List Char) :
    steps (climb n ++ t) = List.replicate n .up ++ steps t := by
  unfold climb
  split
  · rename_i hn
    subst hn
    exact steps_append_slash ['.'] t
  · clear * -
    induction n with
    | zero => rfl
    | succ n ih =>
      rw [List.replicate_succ, List.flatten_cons, List.append_assoc, List.replicate_succ,
        List.cons_append, ← ih]
      exact steps_append_slash ['.', '.'] _

theorem isAbsolute_climb (n : Nat) (t : List Char) :
    (⟨climb n ++ t⟩ : Path).isAbsolute = false := by
  obtain ⟨s, hs⟩ := climb_eq_cons n
  rw [isAbsolute, hs]
  rfl

/-- Joining marks and names to a path, and then resolving, climbs and puts the names at the end. -/
theorem collapse_join_climb {names : List Segment} (h : ∀ s ∈ names, IsName s) (n : Nat)
    (p : Path) : collapse (p.join ⟨climb n ++ joinSegments names⟩).components =
      collapse (p.components ++ List.replicate n .up) ++ names.map .name := by
  rw [collapse_join (isAbsolute_climb _ _), steps_climb, steps_joinSegments_names h,
    ← List.append_assoc, collapse_append_names]

/-- A list of names starts with no mark to go up. -/
theorem countUp_joinSegments {names : List Segment} (h : ∀ s ∈ names, IsName s) :
    Form.countUp (joinSegments names) = (0, joinSegments names) := by
  have hsteps := steps_joinSegments_names h
  rw [Form.countUp.eq_2]
  intro rest hrest
  have hup : steps (joinSegments names) = .up :: steps rest := by
    rw [hrest]
    exact steps_append_slash ['.', '.'] rest
  rw [hsteps] at hup
  cases names <;> simp at hup

/-- Stripping takes away exactly the marks that were put in front of names. -/
theorem stripMarks_climb {names : List Segment} (h : ∀ s ∈ names, IsName s) (n : Nat) :
    stripMarks (climb n ++ joinSegments names) = joinSegments names := by
  by_cases hn : n = 0
  · subst hn
    rfl
  · obtain ⟨m, rfl⟩ := Nat.exists_eq_succ_of_ne_zero hn
    have hsame : sameMark.isPrefixOf? (climb m.succ ++ joinSegments names) = none := by
      rw [climb, if_neg hn, List.replicate_succ, List.flatten_cons, List.append_assoc]
      rfl
    rw [stripMarks, hsame]
    dsimp only
    rw [climb, if_neg hn, Form.countUp_upMarks, countUp_joinSegments h]

/-! ## From the importing directory to the alias root -/

/-- A relative specifier of marks alone, or of marks and a plain subpath. -/
def IsTranslatable (relative : List Char) : Prop :=
  (stripMarks relative = [] ∧ relative ≠ []) ∨ isPlainSubpath (stripMarks relative) = true

theorem not_isTranslatable_iff :
    (!((stripMarks relative).isEmpty && !relative.isEmpty) &&
      !isPlainSubpath (stripMarks relative)) = true ↔ ¬IsTranslatable relative := by
  simp [IsTranslatable, or_iff_not_imp_left]

theorem aliasSubpath?_eq_some_iff :
    aliasSubpath? dir relative root = some subpath ↔ IsTranslatable relative ∧
      ∃ names, names ≠ [] ∧
        (resolveRelative dir relative).components = root.components ++ names.map .name ∧
        subpath = joinSegments names := by
  unfold aliasSubpath?
  dsimp only
  split
  · rename_i hg
    constructor
    · intro h
      cases h
    · rintro ⟨h, -⟩
      exact absurd h (not_isTranslatable_iff.1 hg)
  · rename_i hg
    rw [not_isTranslatable_iff, not_not] at hg
    constructor
    · intro h
      split at h
      · rename_i s segments hs
        exact ⟨hg, s :: segments, List.cons_ne_nil _ _, names_below_iff.1 hs,
          (Option.some.inj h).symm⟩
      · cases h
    · rintro ⟨-, names, hne, hcomp, rfl⟩
      rw [names_below_iff.2 hcomp]
      cases names with
      | nil => exact absurd rfl hne
      | cons s names => rfl

theorem isPlainSubpath_of_aliasSubpath? (h : aliasSubpath? dir relative root = some subpath) :
    isPlainSubpath subpath = true := by
  obtain ⟨-, names, hne, hplace, hsub⟩ := aliasSubpath?_eq_some_iff.1 h
  exact isPlainSubpath_iff.2 ⟨names, hne, isName_of_components_eq hplace, hsub⟩

theorem aliasSubpath?_ne_nil (h : aliasSubpath? dir relative root = some subpath) :
    subpath ≠ [] := by
  rintro rfl
  cases isPlainSubpath_of_aliasSubpath? h

/-- The subpath names the place that the relative specifier named. -/
theorem resolveAlias_of_aliasSubpath? (h : aliasSubpath? dir relative root = some subpath) :
    resolveAlias root subpath = resolveRelative dir relative := by
  obtain ⟨-, names, -, hcomp, rfl⟩ := aliasSubpath?_eq_some_iff.1 h
  refine clean_congr ?_
  rw [collapse_join_names (isName_of_components_eq hcomp), ← collapse_append_names, ← hcomp]
  exact collapse_components_clean _

/-! ## From the alias root to the importing directory -/

/-- What is dropped stands at the front of both lists. -/
theorem exists_dropCommon (as bs : List Component) :
    ∃ cs, as = cs ++ (dropCommon as bs).1 ∧ bs = cs ++ (dropCommon as bs).2 := by
  fun_induction dropCommon as bs with
  | case1 as a bs ih =>
    obtain ⟨cs, has, hbs⟩ := ih
    exact ⟨a :: cs, congrArg (a :: ·) has, congrArg (a :: ·) hbs⟩
  | case2 a as b bs hab => exact ⟨[], rfl, rfl⟩
  | case3 as bs _ => exact ⟨[], rfl, rfl⟩

/-- What follows the first list matters only when all of the first list is common. -/
theorem dropCommon_append (as bs xs : List Component) :
    dropCommon (as ++ xs) bs =
      if (dropCommon as bs).1 = [] then dropCommon xs (dropCommon as bs).2
      else ((dropCommon as bs).1 ++ xs, (dropCommon as bs).2) := by
  fun_induction dropCommon as bs with
  | case1 as a bs ih =>
    rw [List.cons_append, dropCommon, if_pos rfl]
    exact ih
  | case2 a as b bs hab =>
    rw [List.cons_append, dropCommon, if_neg hab, if_neg (List.cons_ne_nil a as)]
  | case3 as bs hnot =>
    cases as with
    | nil => rfl
    | cons a as =>
      cases bs with
      | nil => rfl
      | cons b bs => exact absurd rfl (hnot a as b bs rfl)

theorem stepsTo?_eq_some_iff {target base : Path} {n : Nat} {down : List Segment} :
    stepsTo? target base = some (n, down) ↔ ∃ back : List Segment,
      dropCommon target.components base.components = (down.map .name, back.map .name) ∧
        n = back.length := by
  rw [stepsTo?]
  obtain ⟨ds, bs⟩ := dropCommon target.components base.components
  dsimp only
  constructor
  · intro h
    split at h
    · rename_i names segments hb hd
      cases h
      exact ⟨names, Prod.ext (mapM_name?_eq_some_iff.1 hd) (mapM_name?_eq_some_iff.1 hb), rfl⟩
    · cases h
  · rintro ⟨back, hdrop, rfl⟩
    obtain ⟨rfl, rfl⟩ := Prod.mk.inj hdrop
    rw [mapM_name?_eq_some_iff.2 rfl, mapM_name?_eq_some_iff.2 rfl]

theorem relativeSpecifier?_eq_some_iff :
    relativeSpecifier? dir subpath root = some relative ↔ isPlainSubpath subpath = true ∧
      root.components <+: (resolveAlias root subpath).components ∧ ∃ down back : List Segment,
        dropCommon (resolveAlias root subpath).components dir.clean.components =
            (down.map .name, back.map .name) ∧
          relative = climb back.length ++ joinSegments down := by
  unfold relativeSpecifier?
  split
  · rename_i hp
    rw [Bool.not_eq_true'] at hp
    simp [hp]
  · rename_i hp
    rw [Bool.not_eq_true', Bool.not_eq_false] at hp
    dsimp only
    split
    · rename_i hs
      rw [Bool.not_eq_true', startsWith, ← Bool.not_eq_true, List.isPrefixOf_iff_prefix] at hs
      simp [hs]
    · rename_i hs
      rw [Bool.not_eq_true', Bool.not_eq_false, startsWith, List.isPrefixOf_iff_prefix] at hs
      rw [Option.map_eq_some_iff]
      constructor
      · rintro ⟨⟨n, down⟩, hsteps, rfl⟩
        obtain ⟨back, hdrop, rfl⟩ := stepsTo?_eq_some_iff.1 hsteps
        exact ⟨hp, hs, down, back, hdrop, rfl⟩
      · rintro ⟨-, -, down, back, hdrop, rfl⟩
        exact ⟨(back.length, down), stepsTo?_eq_some_iff.2 ⟨back, hdrop, rfl⟩, rfl⟩

/-- The names of a relative specifier are names of the place it leads to. -/
theorem isName_of_dropCommon {p q : Path} {down back : List Segment}
    (h : dropCommon p.components q.components = (down.map .name, back.map .name)) :
    ∀ s ∈ down, IsName s := by
  obtain ⟨cs, hp, -⟩ := exists_dropCommon p.components q.components
  rw [h] at hp
  exact isName_of_components_eq hp

/-- The relative specifier names the place that the subpath named. -/
theorem resolveRelative_of_relativeSpecifier?
    (h : relativeSpecifier? dir subpath root = some relative) :
    resolveRelative dir relative = resolveAlias root subpath := by
  obtain ⟨-, -, down, back, hdrop, rfl⟩ := relativeSpecifier?_eq_some_iff.1 h
  have hnames := isName_of_dropCommon hdrop
  obtain ⟨cs, htarget, hdir⟩ := exists_dropCommon (resolveAlias root subpath).components
    dir.clean.components
  rw [hdrop] at htarget hdir
  refine clean_congr ?_
  calc collapse (dir.join ⟨climb back.length ++ joinSegments down⟩).components
      = collapse (dir.components ++ (List.replicate back.length .up ++ down.map .name)) := by
        rw [collapse_join_climb hnames, ← collapse_append_names, List.append_assoc]
    _ = collapse (cs ++ back.map .name ++ (List.replicate back.length .up ++ down.map .name)) := by
        rw [← hdir]
        exact collapse_append_congr (collapse_components_clean dir).symm _
    _ = collapse (cs ++ down.map .name) := collapse_names_up _ _ _
    _ = collapse (root.join ⟨subpath⟩).components := by
        rw [← htarget]
        exact collapse_components_clean _

/-- What was made relative becomes the subpath it was made from. -/
theorem aliasSubpath?_of_relativeSpecifier?
    (h : relativeSpecifier? dir subpath root = some relative) :
    aliasSubpath? dir relative root = some subpath := by
  have hplace := resolveRelative_of_relativeSpecifier? h
  obtain ⟨hplain, hroot, down, back, hdrop, rfl⟩ := relativeSpecifier?_eq_some_iff.1 h
  obtain ⟨names, hne, hnames, rfl⟩ := isPlainSubpath_iff.1 hplain
  have hdown := isName_of_dropCommon hdrop
  refine aliasSubpath?_eq_some_iff.2 ⟨?_, names, hne, ?_, rfl⟩
  · rw [IsTranslatable, stripMarks_climb hdown]
    by_cases hd : down = []
    · left
      obtain ⟨s, hs⟩ := climb_eq_cons back.length
      rw [hd, hs]
      exact ⟨rfl, List.cons_ne_nil _ _⟩
    · exact Or.inr (isPlainSubpath_iff.2 ⟨down, hd, hdown, rfl⟩)
  · rw [hplace]
    exact components_resolveAlias_of_front hne hnames hroot

end ImportPaths
