import ImportPaths.Proofs.Specifier.RoundTrip

/-!
# The shortest way

From an absolute directory to a place there is one way without a detour: up to where the two part,
and down from there.  `IsLongestCommon` says where that is without looking at how it is found, and
`exists_isLongestCommon` says that `dropCommon` leaves off there.  The specifier that is written is
this way (`exists_relativeSpecifier?_eq_climb`), and none with fewer steps up leads to the place
(`components_resolveRelative_ne`): whatever is left of the directory after them would be common.
-/

namespace ImportPaths

open ImportPaths.Path

/-! ## The longest common front -/

/-- `cs` is the longest list with which both `as` and `bs` start. -/
structure IsLongestCommon (cs as bs : List Component) : Prop where
  left : cs <+: as
  right : cs <+: bs
  longest : ∀ ds, ds <+: as → ds <+: bs → ds.length ≤ cs.length

namespace IsLongestCommon

variable {cs as bs : List Component}

/-- A common first component belongs to the front, -/
theorem cons (h : IsLongestCommon cs as bs) (a : Component) :
    IsLongestCommon (a :: cs) (a :: as) (a :: bs) where
  left := List.cons_prefix_cons.2 ⟨rfl, h.left⟩
  right := List.cons_prefix_cons.2 ⟨rfl, h.right⟩
  longest := by
    intro ds has hbs
    cases ds with
    | nil => exact Nat.zero_le _
    | cons d ds =>
      have hle := h.longest ds (List.cons_prefix_cons.1 has).2 (List.cons_prefix_cons.1 hbs).2
      exact Nat.succ_le_succ hle

/-- and without one there is no front. -/
theorem nil (h : ∀ d, [d] <+: as → [d] <+: bs → False) : IsLongestCommon [] as bs where
  left := List.nil_prefix
  right := List.nil_prefix
  longest := by
    intro ds has hbs
    cases ds with
    | nil => exact Nat.le_refl _
    | cons d ds =>
      have hd : [d] <+: d :: ds := List.cons_prefix_cons.2 ⟨rfl, List.nil_prefix⟩
      exact absurd (hd.trans hbs) (h d (hd.trans has))

/-- What stands before both lists belongs to the front. -/
theorem append (h : IsLongestCommon [] as bs) (cs : List Component) :
    IsLongestCommon cs (cs ++ as) (cs ++ bs) := by
  induction cs with
  | nil => exact h
  | cons c cs ih => exact ih.cons c

/-- There is only one. -/
theorem unique {ds : List Component} (h : IsLongestCommon cs as bs)
    (h' : IsLongestCommon ds as bs) : cs = ds := by
  have hle := h'.longest cs h.left h.right
  have hge := h.longest ds h'.left h'.right
  exact (List.prefix_of_prefix_length_le h.left h'.left hle).eq_of_length
    (Nat.le_antisymm hle hge)

/-- The first list goes no further than the front exactly when the second one starts with it. -/
theorem length_sub_eq_zero_iff (h : IsLongestCommon cs as bs) :
    as.length - cs.length = 0 ↔ as <+: bs := by
  rw [Nat.sub_eq_zero_iff_le]
  constructor
  · intro hle
    rw [← h.left.eq_of_length_le hle]
    exact h.right
  · intro has
    exact h.longest as List.prefix_rfl has

end IsLongestCommon

/-- What `dropCommon` leaves of two lists does not start alike. -/
theorem dropCommon_apart (as bs : List Component) (d : Component)
    (ha : [d] <+: (dropCommon as bs).1) (hb : [d] <+: (dropCommon as bs).2) : False := by
  fun_induction dropCommon as bs with
  | case1 as a bs ih => exact ih ha hb
  | case2 a as b bs hab =>
    exact hab ((List.cons_prefix_cons.1 ha).1.symm.trans (List.cons_prefix_cons.1 hb).1)
  | case3 as bs hnot =>
    obtain ⟨as', rfl⟩ := ha
    obtain ⟨bs', rfl⟩ := hb
    exact hnot d as' d bs' rfl rfl

/-- So what it drops is the longest common front. -/
theorem exists_isLongestCommon (as bs : List Component) :
    ∃ cs, IsLongestCommon cs bs as ∧ as = cs ++ (dropCommon as bs).1 ∧
      bs = cs ++ (dropCommon as bs).2 := by
  obtain ⟨cs, has, hbs⟩ := exists_dropCommon as bs
  have hnil : IsLongestCommon [] (dropCommon as bs).2 (dropCommon as bs).1 :=
    .nil fun d hb ha => dropCommon_apart as bs d ha hb
  have hcs := hnil.append cs
  rw [← has, ← hbs] at hcs
  exact ⟨cs, hcs, has, hbs⟩

/-! ## Steps up -/

variable {dir root : Path} {subpath : List Char} {names : List Segment}

/-- Only a specifier without steps up starts with the mark of the importing directory. -/
theorem sameMark_prefix_climb_iff (n : Nat) (t : List Char) :
    sameMark <+: climb n ++ t ↔ n = 0 := by
  constructor
  · intro h
    by_contra hn
    rw [climb, if_neg hn] at h
    exact Form.not_upMark_of_sameMark h (Form.upMark_prefix_upMarks hn t)
  · rintro rfl
    exact List.prefix_append _ _

/-- Joining steps up and names to a path, and then resolving, climbs and puts the names at the end;
without a step up the names stand alone. -/
theorem collapse_join_upMarks (h : ∀ s ∈ names, IsName s) (n : Nat) (p : Path) :
    collapse (p.join ⟨(List.replicate n upMark).flatten ++ joinSegments names⟩).components =
      collapse (p.components ++ List.replicate n .up) ++ names.map .name := by
  cases n with
  | zero =>
    rw [List.replicate_zero, List.replicate_zero, List.append_nil]
    exact collapse_join_names h p
  | succ n => exact collapse_join_climb h (n + 1) p

/-- The steps up on any way to a place take one to the common front or above it. -/
theorem hops_le_of_leadsTo (hd : dir.isAbsolute = true) {common target : List Component} {n : Nat}
    (hcommon : IsLongestCommon common dir.clean.components target)
    (h : collapse (dir.components ++ List.replicate n .up) ++ names.map .name = target) :
    dir.clean.components.length - common.length ≤ n := by
  obtain ⟨front, back, hback, hclean, hup⟩ := collapse_up_of_isAbsolute hd n
  have hdir : dir.clean.components = .root :: front.map .name ++ back.map .name := by
    rw [hclean, List.map_append, List.cons_append]
  have hfront : (.root :: front.map .name : List Component).length ≤ common.length := by
    refine hcommon.longest _ ⟨back.map .name, hdir.symm⟩ ⟨names.map .name, ?_⟩
    rw [← hup, h]
  have hlength := congrArg List.length hdir
  simp only [List.length_append, List.length_map] at hlength hfront
  omega

/-- With fewer steps up than lead to the common front, no names lead to the place, whether or not
the mark of the directory stands before them. -/
theorem components_resolveRelative_ne (hd : dir.isAbsolute = true) {common target : List Component}
    {n : Nat} (hcommon : IsLongestCommon common dir.clean.components target)
    (hn : n < dir.clean.components.length - common.length) (hnames : ∀ s ∈ names, IsName s) :
    (resolveRelative dir ((List.replicate n upMark).flatten ++ joinSegments names)).components ≠
        target ∧
      (resolveRelative dir (climb n ++ joinSegments names)).components ≠ target := by
  have hfar : collapse (dir.components ++ List.replicate n .up) ++ names.map .name ≠ target :=
    fun h => absurd (hops_le_of_leadsTo hd hcommon h) (Nat.not_le.2 hn)
  rw [resolveRelative, resolveRelative, components_clean_of_isAbsolute (isAbsolute_join hd _),
    components_clean_of_isAbsolute (isAbsolute_join hd _), collapse_join_upMarks hnames,
    collapse_join_climb hnames]
  exact ⟨hfar, hfar⟩

/-! ## The specifier that is written -/

/-- The place of a plain subpath under a clean root needs no cleaning. -/
theorem components_resolveAlias_eq_join (hr : root.isAbsolute = true) (hc : root.IsClean)
    (hplain : isPlainSubpath subpath = true) :
    (resolveAlias root subpath).components = (root.join ⟨subpath⟩).components := by
  obtain ⟨names, hne, hnames, rfl⟩ := isPlainSubpath_iff.1 hplain
  rw [components_resolveAlias_of_isClean hr hc hne hnames,
    components_join (chars_ne_nil_of_isAbsolute hr) (isAbsolute_joinSegments hnames),
    steps_joinSegments_names hnames]

/-- The specifier that is written climbs to the end of the longest common front. -/
theorem exists_relativeSpecifier?_eq_climb (hd : dir.isAbsolute = true)
    (hr : root.isAbsolute = true) (hc : root.IsClean) (hplain : isPlainSubpath subpath = true) :
    ∃ common down,
      IsLongestCommon common dir.clean.components (root.join ⟨subpath⟩).components ∧
        (root.join ⟨subpath⟩).components = common ++ down.map .name ∧
        relativeSpecifier? dir subpath root =
          some (climb (dir.clean.components.length - common.length) ++ joinSegments down) := by
  obtain ⟨relative, hrel⟩ :=
    Option.isSome_iff_exists.1 ((relativeSpecifier?_isSome_iff hd hr hc).2 hplain)
  obtain ⟨-, -, down, back, hdrop, hwritten⟩ := relativeSpecifier?_eq_some_iff.1 hrel
  obtain ⟨common, hcommon, hdown, hback⟩ :=
    exists_isLongestCommon (resolveAlias root subpath).components dir.clean.components
  rw [hdrop] at hdown hback
  rw [components_resolveAlias_eq_join hr hc hplain] at hcommon hdown
  refine ⟨common, down, hcommon, hdown, ?_⟩
  rw [hrel, hwritten, hback, List.length_append, List.length_map, Nat.add_sub_cancel_left]

end ImportPaths
