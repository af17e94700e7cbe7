import ImportPaths.Proofs.Path.Quotable
import ImportPaths.Proofs.Specifier.Translation

/-!
# Names in a translated specifier

A translated specifier is made of names of the old one and of names that come from the paths
involved.  From the importing directory to the alias root these are the names that lead from the
root down to the directory (`name_of_aliasSubpath?`); from the alias root to the importing
directory, those that lead down to the root from where the two part (`name_of_relativeSpecifier?`).
All of them are written for some specifier (`aliasSubpath?_of_down`, `relativeSpecifier?_of_down`).
-/

namespace ImportPaths

open ImportPaths.Path

variable {dir root : Path} {relative subpath : List Char} {token : List Char} {form : Form}

/-- A single `.` does not end with names. -/
theorem here_ne_append_names {cs : List Component} {names : List Segment} (hne : names ≠ []) :
    [Component.here] ≠ cs ++ names.map .name := by
  intro h
  obtain ⟨s, hs⟩ := List.exists_mem_of_ne_nil names hne
  have hmem : Component.name s ∈ [Component.here] := by
    rw [h]
    exact List.mem_append_right _ (List.mem_map_of_mem hs)
  simp at hmem

/-- A relative specifier that can be translated is marks and names. -/
theorem exists_climb_names (h : Form.ofBody? token relative = some form)
    (hrel : form.isRelative = true) (ht : IsTranslatable relative) :
    ∃ n names, (∀ s ∈ names, IsName s) ∧ relative = climb n ++ joinSegments names := by
  obtain ⟨n, hn⟩ := Form.exists_climb_of_isRelative h hrel
  rcases ht with ⟨hnil, -⟩ | hplain
  · refine ⟨n, [], by simp, ?_⟩
    rw [hnil] at hn
    exact hn
  · obtain ⟨names, -, hnames, hstrip⟩ := isPlainSubpath_iff.1 hplain
    rw [hstrip] at hn
    exact ⟨n, names, hnames, hn⟩

/-! ## Where names come from -/

/-- The steps up and the names of a relative specifier lead to the root and on to the names of its
subpath. -/
theorem exists_climb_of_aliasSubpath? (hform : Form.ofBody? token relative = some form)
    (hrel : form.isRelative = true) (h : aliasSubpath? dir relative root = some subpath) :
    ∃ (n : Nat) (own names : List Segment), relative = climb n ++ joinSegments own ∧
      subpath = joinSegments names ∧
      collapse (dir.components ++ List.replicate n .up) ++ own.map .name =
        root.components ++ names.map .name := by
  obtain ⟨ht, names, hne, hplace, hsub⟩ := aliasSubpath?_eq_some_iff.1 h
  obtain ⟨n, own, hown, hwritten⟩ := exists_climb_names hform hrel ht
  refine ⟨n, own, names, hwritten, hsub, ?_⟩
  rw [← collapse_join_climb hown, ← hwritten, ← hplace]
  rcases components_clean (dir.join ⟨relative⟩) with hc | ⟨-, hc⟩
  · exact hc.symm
  · rw [resolveRelative, hc] at hplace
    exact absurd hplace (here_ne_append_names hne)

/-- A name of a subpath is written in the relative specifier, or it leads from the root down to
the directory of the importing file. -/
theorem name_of_aliasSubpath? (hform : Form.ofBody? token relative = some form)
    (hrel : form.isRelative = true) (h : aliasSubpath? dir relative root = some subpath) :
    ∃ names, subpath = joinSegments names ∧ ∀ s ∈ names, s ⊆ relative ∨
      ∃ down : List Segment, dir.clean.components = root.components ++ down.map .name ∧
        s ∈ down := by
  obtain ⟨n, own, names, hwritten, hsub, hsplit⟩ := exists_climb_of_aliasSubpath? hform hrel h
  refine ⟨names, hsub, ?_⟩
  have hwrite : ∀ s ∈ own, s ⊆ relative := by
    intro s hs c hc
    rw [hwritten]
    exact List.mem_append_right _ (mem_joinSegments_of_mem hs hc)
  intro s hs
  rcases List.append_eq_append_iff.1 hsplit with ⟨cs, -, hcs⟩ | ⟨cs, hdir, hcs⟩
  · -- the specifier climbs to the root or above it, and all names are its own
    left
    have hmem : Component.name s ∈ own.map .name := by
      rw [hcs]
      exact List.mem_append_right _ (List.mem_map_of_mem hs)
    exact hwrite s (by simpa using hmem)
  · obtain ⟨down, own', rfl, rfl, hown'⟩ := List.map_eq_append_iff.1 hcs
    rcases List.mem_append.1 hs with hd | ho
    · right
      obtain ⟨more, hmore⟩ := exists_names_below (List.ne_nil_of_mem hd) hdir
      exact ⟨down ++ more, hmore, List.mem_append_left _ hd⟩
    · left
      have hmem : Component.name s ∈ own.map .name := by
        rw [← hown']
        exact List.mem_map_of_mem ho
      exact hwrite s (by simpa using hmem)

/-- A name of a relative specifier is written in the subpath, or it leads down to the root from
where the way to it leaves the importing directory. -/
theorem name_of_relativeSpecifier? (h : relativeSpecifier? dir subpath root = some relative) :
    ∃ n names, relative = climb n ++ joinSegments names ∧ ∀ s ∈ names, s ⊆ subpath ∨
      ∃ m down, stepsTo? root dir.clean = some (m, down) ∧ s ∈ down := by
  obtain ⟨hplain, hroot, names, back, hdrop, hrel⟩ := relativeSpecifier?_eq_some_iff.1 h
  obtain ⟨own, hne, hown, rfl⟩ := isPlainSubpath_iff.1 hplain
  refine ⟨back.length, names, hrel, ?_⟩
  rw [components_resolveAlias_of_front hne hown hroot, dropCommon_append] at hdrop
  intro s hs
  have hwrite : Component.name s ∈ own.map .name → s ⊆ joinSegments own := by
    intro hmem c hc
    exact mem_joinSegments_of_mem (by simpa using hmem) hc
  split at hdrop
  · -- the directory lies below the root: all names are those of the subpath
    left
    obtain ⟨cs, hcs, -⟩ := exists_dropCommon (own.map .name)
      (dropCommon root.components dir.clean.components).2
    rw [hdrop] at hcs
    refine hwrite ?_
    rw [hcs]
    exact List.mem_append_right _ (List.mem_map_of_mem hs)
  · obtain ⟨hnames, hback⟩ := Prod.mk.inj hdrop
    obtain ⟨down, own', rfl, hdown, hown'⟩ := List.map_eq_append_iff.1 hnames.symm
    rcases List.mem_append.1 hs with hd | ho
    · right
      exact ⟨back.length, down, stepsTo?_eq_some_iff.2 ⟨back, Prod.ext hdown.symm hback, rfl⟩, hd⟩
    · left
      refine hwrite ?_
      rw [← hown']
      exact List.mem_map_of_mem ho

/-! ## Specifiers that take all of these names over -/

/-- What lies in a directory below the root is named from the root down. -/
theorem aliasSubpath?_of_down {down : List Segment} {s : Segment} (hs : IsName s) (hne : down ≠ [])
    (h : dir.clean.components = root.components ++ down.map .name) :
    aliasSubpath? dir (climb 0 ++ joinSegments [s]) root = some (joinSegments (down ++ [s])) := by
  have hnames : ∀ t ∈ [s], IsName t := by simpa using hs
  refine aliasSubpath?_eq_some_iff.2 ⟨Or.inr ?_, down ++ [s], by simp, ?_, rfl⟩
  · rw [stripMarks_climb hnames]
    exact isPlainSubpath_iff.2 ⟨[s], by simp, hnames, rfl⟩
  · have hdir : collapse dir.components = root.components ++ down.map .name := by
      rcases components_clean dir with hc | ⟨-, hc⟩
      · rw [← hc, h]
      · rw [hc] at h
        exact absurd h (here_ne_append_names hne)
    have hres := collapse_join_climb hnames 0 dir
    rw [List.replicate_zero, List.append_nil, hdir] at hres
    rw [resolveRelative, components_clean_of_ne_nil (by simp [hres]), hres, List.map_append,
      List.append_assoc]

/-- What lies in the root is named over the way to the root, when the directory lies elsewhere. -/
theorem relativeSpecifier?_of_down {down : List Segment} {s : Segment} {m : Nat} (hs : IsName s)
    (hroot : root.clean = root) (hne : down ≠ [])
    (h : stepsTo? root dir.clean = some (m, down)) :
    relativeSpecifier? dir (joinSegments [s]) root =
      some (climb m ++ joinSegments (down ++ [s])) := by
  have hnames : ∀ t ∈ [s], IsName t := by simpa using hs
  obtain ⟨back, hdrop, rfl⟩ := stepsTo?_eq_some_iff.1 h
  have hresolved : collapse root.components = root.components := by
    rcases components_clean root with hc | ⟨-, hc⟩
    · rw [← hc, hroot]
    · obtain ⟨cs, hcs, -⟩ := exists_dropCommon root.components dir.clean.components
      rw [hdrop, ← hroot, hc] at hcs
      exact absurd hcs (here_ne_append_names hne)
  have htarget : (resolveAlias root (joinSegments [s])).components =
      root.components ++ [s].map .name := by
    rw [components_resolveAlias (by simp) hnames, hresolved]
  refine relativeSpecifier?_eq_some_iff.2
    ⟨isPlainSubpath_iff.2 ⟨[s], by simp, hnames, rfl⟩, ?_, down ++ [s], back, ?_, rfl⟩
  · rw [htarget]
    exact List.prefix_append _ _
  · rw [htarget, dropCommon_append, hdrop, if_neg (by simpa using hne), List.map_append]

end ImportPaths
