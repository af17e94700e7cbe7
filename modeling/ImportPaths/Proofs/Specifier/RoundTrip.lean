import ImportPaths.Proofs.Path.Absolute
import ImportPaths.Proofs.Specifier.Translation

/-!
# There and back

The two translations undo each other.  From an absolute directory every plain subpath under a clean
root can be made relative (`relativeSpecifier?_isSome_iff`), and what is made relative becomes the
very subpath it was made from.  The other way round a relative specifier comes back in a normal
form: it names the same place, with no more steps up than before, and stays as it is from then on
(`relativeSpecifier?_normalForm`).

Both rest on what an absolute directory and an absolute place look like once they are clean: the
root and names, so that what they do not share is names on either side (`dropCommon_names`).
-/

namespace ImportPaths

open ImportPaths.Path

variable {dir root : Path} {relative subpath : List Char}

/-! ## What is not shared -/

/-- A common front is dropped. -/
theorem dropCommon_append_append (cs as bs : List Component) :
    dropCommon (cs ++ as) (cs ++ bs) = dropCommon as bs := by
  induction cs with
  | nil => rfl
  | cons c cs ih => rw [List.cons_append, List.cons_append, dropCommon, if_pos rfl, ih]

/-- What two lists of names do not share is names. -/
theorem dropCommon_names (xs ys : List Segment) :
    ∃ down back : List Segment, back.length ≤ ys.length ∧
      dropCommon (xs.map .name) (ys.map .name) = (down.map .name, back.map .name) := by
  obtain ⟨cs, hx, hy⟩ := exists_dropCommon (xs.map .name) (ys.map .name)
  obtain ⟨_, down, -, -, hdown⟩ := List.map_eq_append_iff.1 hx
  obtain ⟨front, back, rfl, -, hback⟩ := List.map_eq_append_iff.1 hy
  exact ⟨down, back, by simp, Prod.ext hdown.symm hback.symm⟩

/-! ## From the alias root, always -/

/-- The place of a plain subpath under a clean absolute root: the root, its names, and those of the
subpath. -/
theorem components_resolveAlias_of_isClean {names : List Segment} (hr : root.isAbsolute = true)
    (hc : root.IsClean) (hne : names ≠ []) (hnames : ∀ s ∈ names, IsName s) :
    (resolveAlias root (joinSegments names)).components = root.components ++ names.map .name := by
  rw [components_resolveAlias hne hnames, ← components_clean_of_isAbsolute hr, hc]

/-- Seen from an absolute directory, a plain subpath under a clean absolute root can be made
relative. -/
theorem relativeSpecifier?_isSome_iff (hd : dir.isAbsolute = true) (hr : root.isAbsolute = true)
    (hc : root.IsClean) :
    (relativeSpecifier? dir subpath root).isSome = true ↔ isPlainSubpath subpath = true := by
  rw [Option.isSome_iff_exists]
  constructor
  · rintro ⟨relative, h⟩
    exact (relativeSpecifier?_eq_some_iff.1 h).1
  · intro hplain
    obtain ⟨names, hne, hnames, rfl⟩ := isPlainSubpath_iff.1 hplain
    have htarget := components_resolveAlias_of_isClean hr hc hne hnames
    obtain ⟨rootNames, hroot⟩ := exists_components_clean_eq hr
    obtain ⟨dirNames, hdir⟩ := exists_components_clean_eq hd
    obtain ⟨down, back, -, hdrop⟩ := dropCommon_names (rootNames ++ names) dirNames
    refine ⟨_, relativeSpecifier?_eq_some_iff.2 ⟨hplain, ?_, down, back, ?_, rfl⟩⟩
    · rw [htarget]
      exact List.prefix_append _ _
    · -- both start at the root, and then there are names only
      rw [htarget, ← hc, hroot, hdir, List.cons_append, ← List.map_append, dropCommon, if_pos rfl,
        hdrop]

/-! ## Relative specifiers that can be translated -/

/-- Marks and names, or names alone: the marks are the steps up that are counted. -/
theorem IsTranslatable.steps_eq (h : IsTranslatable relative) :
    (⟨relative⟩ : Path).isAbsolute = false ∧ ∃ names : List Segment, (∀ s ∈ names, IsName s) ∧
      steps relative = List.replicate (Form.countUp relative).1 .up ++ names.map .name := by
  obtain ⟨names, hnames, hstrip⟩ : ∃ names : List Segment, (∀ s ∈ names, IsName s) ∧
      stripMarks relative = joinSegments names := by
    rcases h with ⟨hnil, -⟩ | hplain
    · exact ⟨[], by simp, hnil⟩
    · obtain ⟨names, -, hnames, hstrip⟩ := isPlainSubpath_iff.1 hplain
      exact ⟨names, hnames, hstrip⟩
  rw [stripMarks] at hstrip
  split at hstrip
  · rename_i rest hrest
    obtain rfl := Text.append_eq_of_isPrefixOf? hrest
    subst hstrip
    refine ⟨rfl, names, hnames, ?_⟩
    have hsteps := steps_climb 0 (joinSegments names)
    rw [steps_joinSegments_names hnames] at hsteps
    exact hsteps
  · have hmarks := Form.countUp_eq relative
    rw [hstrip] at hmarks
    by_cases hn : (Form.countUp relative).1 = 0
    · rw [hn, List.replicate_zero, List.flatten_nil, List.nil_append] at hmarks
      rw [hn, ← hmarks, steps_joinSegments_names hnames]
      exact ⟨isAbsolute_joinSegments hnames, names, hnames, rfl⟩
    · have hclimb : climb (Form.countUp relative).1 ++ joinSegments names = relative := by
        rw [climb, if_neg hn, hmarks]
      refine ⟨hclimb ▸ isAbsolute_climb _ _, names, hnames, ?_⟩
      have hsteps := steps_climb (Form.countUp relative).1 (joinSegments names)
      rwa [hclimb, steps_joinSegments_names hnames] at hsteps

/-- The marks that are written are counted. -/
theorem countUp_climb {names : List Segment} (h : ∀ s ∈ names, IsName s) (n : Nat) :
    (Form.countUp (climb n ++ joinSegments names)).1 = n := by
  by_cases hn : n = 0
  · subst hn
    rfl
  · rw [climb, if_neg hn, Form.countUp_upMarks, countUp_joinSegments h, Nat.add_zero]

/-- Only from an absolute directory does a relative specifier lead below an absolute root, and the
other way round. -/
theorem isAbsolute_iff_of_aliasSubpath? (h : aliasSubpath? dir relative root = some subpath) :
    dir.isAbsolute = true ↔ root.isAbsolute = true := by
  obtain ⟨ht, names, -, hplace, -⟩ := aliasSubpath?_eq_some_iff.1 h
  have hroot : .root ∈ (resolveRelative dir relative).components ↔ root.isAbsolute = true := by
    rw [hplace, isAbsolute_iff, List.mem_append, or_iff_left (by simp)]
  rw [← hroot]
  constructor
  · intro hd
    exact isAbsolute_iff.1 (isAbsolute_clean (isAbsolute_join hd _))
  · exact isAbsolute_of_join ht.steps_eq.1

/-- A root below which an absolute directory leads is clean. -/
theorem isClean_of_aliasSubpath? (hd : dir.isAbsolute = true)
    (h : aliasSubpath? dir relative root = some subpath) : root.IsClean := by
  obtain ⟨-, names, -, hplace, -⟩ := aliasSubpath?_eq_some_iff.1 h
  have hroot := (isAbsolute_iff_of_aliasSubpath? h).1 hd
  have hfront : root.components <+: collapse (dir.join ⟨relative⟩).components := by
    rw [← components_clean_of_isAbsolute (isAbsolute_join hd _)]
    exact ⟨_, hplace.symm⟩
  rw [IsClean, components_clean_of_isAbsolute hroot, collapse_eq_self_of_prefix hfront]

/-! ## The normal form -/

/-- A place that is reached by `n` steps up and then names is reached with at most `n` steps up. -/
theorem length_le_of_dropCommon (hd : dir.isAbsolute = true) {names down back : List Segment}
    {n : Nat} (hdrop : dropCommon (collapse (dir.components ++ List.replicate n .up) ++
        names.map .name) dir.clean.components = (down.map .name, back.map .name)) :
    back.length ≤ n := by
  obtain ⟨front, rest, hrest, hclean, hup⟩ := collapse_up_of_isAbsolute hd n
  obtain ⟨down', back', hback', hdrop'⟩ := dropCommon_names names rest
  rw [hup, hclean, List.map_append, ← List.cons_append, dropCommon_append_append, hdrop'] at hdrop
  have hlength := congrArg (fun p => p.2.length) hdrop
  simp only [List.length_map] at hlength
  omega

/-- A subpath that was made from a relative specifier can be made relative again, -/
theorem exists_relativeSpecifier? (hd : dir.isAbsolute = true)
    (h : aliasSubpath? dir relative root = some subpath) :
    ∃ short, relativeSpecifier? dir subpath root = some short := by
  have hr := (isAbsolute_iff_of_aliasSubpath? h).1 hd
  exact Option.isSome_iff_exists.1
    ((relativeSpecifier?_isSome_iff hd hr (isClean_of_aliasSubpath? hd h)).2
      (isPlainSubpath_of_aliasSubpath? h))

/-- and then leads where it led, -/
theorem resolveRelative_relativeSpecifier? {short : List Char}
    (h : aliasSubpath? dir relative root = some subpath)
    (hs : relativeSpecifier? dir subpath root = some short) :
    resolveRelative dir short = resolveRelative dir relative :=
  (resolveRelative_of_relativeSpecifier? hs).trans (resolveAlias_of_aliasSubpath? h)

/-- with at most as many steps up. -/
theorem countUp_le_of_relativeSpecifier? {short : List Char} (hd : dir.isAbsolute = true)
    (h : aliasSubpath? dir relative root = some subpath)
    (hs : relativeSpecifier? dir subpath root = some short) :
    (Form.countUp short).1 ≤ (Form.countUp relative).1 := by
  obtain ⟨-, -, down, back, hdrop, rfl⟩ := relativeSpecifier?_eq_some_iff.1 hs
  obtain ⟨hrel, names, -, hsteps⟩ := (aliasSubpath?_eq_some_iff.1 h).1.steps_eq
  have hplace : (resolveAlias root subpath).components = collapse (dir.components ++
      List.replicate (Form.countUp relative).1 .up) ++ names.map .name := by
    rw [resolveAlias_of_aliasSubpath? h, resolveRelative,
      components_clean_of_isAbsolute (isAbsolute_join hd _), collapse_join hrel, hsteps,
      ← List.append_assoc, collapse_append_names]
  rw [countUp_climb (isName_of_dropCommon hdrop)]
  rw [hplace] at hdrop
  exact length_le_of_dropCommon hd hdrop

/-- A relative specifier that was made alias-rooted can be made relative again.  It then names the
same place with at most as many steps up, and there and back once more changes nothing. -/
theorem relativeSpecifier?_normalForm (dir root : Path) (relative subpath : List Char)
    (hd : dir.isAbsolute = true) (h : aliasSubpath? dir relative root = some subpath) :
    ∃ short, relativeSpecifier? dir subpath root = some short ∧
      resolveRelative dir short = resolveRelative dir relative ∧
      (Form.countUp short).1 ≤ (Form.countUp relative).1 ∧
      (aliasSubpath? dir short root).bind (relativeSpecifier? dir · root) = some short := by
  obtain ⟨short, hs⟩ := exists_relativeSpecifier? hd h
  refine ⟨short, hs, resolveRelative_relativeSpecifier? h hs,
    countUp_le_of_relativeSpecifier? hd h hs, ?_⟩
  rw [aliasSubpath?_of_relativeSpecifier? hs, Option.bind_some, hs]

/-- A specifier that climbs past the root of the file system, and comes down to where it started. -/
theorem relativeSpecifier?_normalForm_past_root :
    let dir := Path.ofString "/p/a"
    let root := Path.ofString "/p"
    let relative := "../../../p/a/x".toList
    dir.isAbsolute = true ∧ aliasSubpath? dir relative root = some "a/x".toList ∧
      ∃ short, relativeSpecifier? dir "a/x".toList root = some short ∧
        resolveRelative dir short = resolveRelative dir relative ∧
        (Form.countUp short).1 ≤ (Form.countUp relative).1 ∧
        (aliasSubpath? dir short root).bind (relativeSpecifier? dir · root) = some short := by
  intro dir root relative
  have hd : dir.isAbsolute = true := by decide
  have h : aliasSubpath? dir relative root = some "a/x".toList := by decide
  exact ⟨hd, h, relativeSpecifier?_normalForm dir root relative "a/x".toList hd h⟩

end ImportPaths
