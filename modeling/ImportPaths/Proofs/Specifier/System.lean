import ImportPaths.Proofs.Path.Letters
import ImportPaths.Proofs.Specifier.Accepted
import ImportPaths.Proofs.Specifier.Shortest

/-!
# Translations over paths of bytes

Of a specifier in letters the marks are in letters what they are, and its segments are plain when
they are (`stripMarks_letters`, `isPlainSubpath_letters`).  So a translation over paths of bytes
answers with a text exactly when the translation over their letters answers with the letters of that
text (`SystemPath.aliasSubpath?_eq_some_iff`, `SystemPath.relativeSpecifier?_eq_some_iff`).

Hence what is known of translations holds for paths of bytes too: they undo each other
(`SystemPath.aliasSubpath?_leftInverse`), take the shortest way (`SystemPath.relativeSpecifier?_least`)
and stay below the root (`SystemPath.aliasSubpath?_below`).  But of the place, the names that would
have to be written must be texts (`LeadsByTexts`).  Where one is not, a plain subpath has no relative
specifier, and a place below the root has no subpath.
-/

namespace ImportPaths

open ImportPaths.Path ImportPaths.Text

variable {s t relative rest subpath : List Char}

/-! ## Specifiers in letters -/

theorem isPlainSegment_letters (s : List Char) :
    isPlainSegment (letters s) = isPlainSegment s := by
  rw [Bool.eq_iff_iff, isPlainSegment_iff, isPlainSegment_iff]
  simp only [ne_eq, letters_eq_nil_iff, letters_eq_dot_iff, letters_eq_dots_iff]

theorem isPlainSubpath_letters (s : List Char) :
    isPlainSubpath (letters s) = isPlainSubpath s := by
  have hempty : (letters s).isEmpty = s.isEmpty := by
    rw [Bool.eq_iff_iff, List.isEmpty_iff, List.isEmpty_iff, letters_eq_nil_iff]
  have hplain : isPlainSegment ∘ letters = isPlainSegment := funext isPlainSegment_letters
  rw [isPlainSubpath, splitOn_letters, List.all_map, hplain, hempty, isPlainSubpath]

theorem isName_letters_iff : IsName (letters s) ↔ IsName s := by
  constructor
  · rintro ⟨hplain, hslash⟩
    rw [isPlainSegment_letters] at hplain
    exact ⟨hplain, mt slash_mem_letters_iff.2 hslash⟩
  · rintro ⟨hplain, hslash⟩
    refine ⟨?_, mt slash_mem_letters_iff.1 hslash⟩
    rwa [isPlainSegment_letters]

theorem letters_sameMark_append (s : List Char) : letters (sameMark ++ s) = sameMark ++ letters s :=
  letters_append sameMark s

theorem letters_upMarks_append (n : Nat) (s : List Char) :
    letters ((List.replicate n upMark).flatten ++ s) =
      (List.replicate n upMark).flatten ++ letters s := by
  induction n with
  | zero => rfl
  | succ n ih =>
    rw [List.replicate_succ, List.flatten_cons, List.append_assoc, letters_append, ih,
      List.append_assoc]
    rfl

theorem letters_climb_append (n : Nat) (s : List Char) :
    letters (climb n ++ s) = climb n ++ letters s := by
  unfold climb
  split
  · exact letters_sameMark_append s
  · exact letters_upMarks_append n s

/-- Marks and names are the letters of a text only when each name is. -/
theorem exists_of_letters_eq_climb {n : Nat} {names : List Segment} (hnames : ∀ t ∈ names, IsName t)
    (h : letters s = climb n ++ joinSegments names) :
    ∃ ss : List (List Char), s = climb n ++ joinSegments ss ∧ names = ss.map letters := by
  have hclimb : letters (climb n) = climb n := by
    simpa using letters_climb_append n []
  obtain ⟨t, rfl⟩ : climb n <+: s := by
    rw [← letters_prefix_iff, hclimb, h]
    exact List.prefix_append _ _
  rw [letters_climb_append] at h
  obtain ⟨ss, rfl, rfl⟩ := exists_of_letters_eq_joinSegments hnames (List.append_cancel_left h)
  exact ⟨ss, rfl, rfl⟩

theorem Unmarked.letters (h : Unmarked relative rest) :
    Unmarked (letters relative) (letters rest) := by
  rcases h with rfl | ⟨hsame, hup, n, rfl⟩
  · exact Or.inl (letters_sameMark_append rest)
  · right
    refine ⟨?_, ?_, n, letters_upMarks_append n rest⟩
    · exact mt (letters_prefix_iff (s := sameMark)).1 hsame
    · exact mt (letters_prefix_iff (s := upMark)).1 hup

theorem stripMarks_letters (s : List Char) : stripMarks (letters s) = letters (stripMarks s) :=
  stripMarks_eq_iff.2 (stripMarks_eq_iff.1 rfl).letters

theorem isTranslatable_letters_iff : IsTranslatable (letters s) ↔ IsTranslatable s := by
  rw [IsTranslatable, stripMarks_letters, letters_eq_nil_iff, isPlainSubpath_letters, ne_eq,
    letters_eq_nil_iff]
  rfl

/-! ## Names that are texts -/

theorem Component.text?_eq_some_iff {c : Component} : c.text? = some s ↔ c = .ofText s := by
  simp only [text?, Option.bind_eq_some_iff, name?_eq_some_iff, ofLetters?_eq_some_iff,
    exists_eq_right, ofText]

theorem mapM_text?_eq_some_iff {cs : List Component} {ss : List (List Char)} :
    cs.mapM Component.text? = some ss ↔ cs = ss.map .ofText :=
  mapM_eq_some_iff_eq_map Component.text?_eq_some_iff

theorem map_ofText (ss : List (List Char)) :
    ss.map Component.ofText = (ss.map letters).map .name := by
  rw [List.map_map]
  rfl

/-- Names each of which is a text are a list of texts. -/
theorem exists_map_ofText {cs : List Component} (h : ∀ c ∈ cs, ∃ s, c = .ofText s) :
    ∃ ss : List (List Char), cs = ss.map .ofText := by
  have htext : ∀ c ∈ cs, ∃ s, c.text? = some s := by
    intro c hc
    obtain ⟨s, hs⟩ := h c hc
    exact ⟨s, Component.text?_eq_some_iff.2 hs⟩
  obtain ⟨ss, hss⟩ := exists_map_eq htext
  exact ⟨ss, mapM_text?_eq_some_iff.1 (mapM_eq_some_iff.2 hss)⟩

/-- What two lists do not share, they do not share in letters. -/
theorem dropCommon_map_inLetters (as bs : List Component) :
    dropCommon (as.map Component.inLetters) (bs.map Component.inLetters) =
      ((dropCommon as bs).1.map Component.inLetters, (dropCommon as bs).2.map Component.inLetters) := by
  fun_induction dropCommon as bs with
  | case1 as a bs ih => rw [List.map_cons, List.map_cons, dropCommon, if_pos rfl, ih]
  | case2 a as b bs hab =>
    rw [List.map_cons, List.map_cons, dropCommon,
      if_neg (mt (fun h => Component.inLetters_injective h) hab)]
  | case3 as bs hnot =>
    cases as with
    | nil => simp [dropCommon]
    | cons a as =>
      cases bs with
      | nil => simp [dropCommon]
      | cons b bs => exact absurd rfl (hnot a as b bs rfl)

namespace SystemPath

variable {dir root : SystemPath}

/-! ## The two translations -/

theorem aliasSubpath?_eq_some_iff :
    dir.aliasSubpath? relative root = some subpath ↔
      ImportPaths.aliasSubpath? dir.letters (Text.letters relative) root.letters =
        some (Text.letters subpath) := by
  have hbelow (ss : List (List Char)) :
      ((dir.resolveRelative relative).below? root.letters).bind (·.mapM Component.text?) = some ss ↔
        (dir.resolveRelative relative).components =
          root.letters.components ++ (ss.map Text.letters).map .name := by
    simp only [Option.bind_eq_some_iff, below?_eq_some_iff, mapM_text?_eq_some_iff, map_ofText,
      exists_eq_right]
  rw [ImportPaths.aliasSubpath?_eq_some_iff, isTranslatable_letters_iff]
  unfold aliasSubpath?
  dsimp only
  split
  · rename_i hg
    constructor
    · intro h
      cases h
    · rintro ⟨h, -⟩
      exact absurd h (not_isTranslatable_iff.1 hg)
  · rename_i hg
    rw [not_isTranslatable_iff, not_not] at hg
    constructor
    · intro h
      split at h
      · rename_i s ss hs
        obtain rfl := Option.some.inj h
        exact ⟨hg, (s :: ss).map Text.letters, by simp, (hbelow _).1 hs, letters_joinSegments _⟩
      · cases h
    · rintro ⟨-, names, hne, hplace, hsub⟩
      obtain ⟨ss, rfl, rfl⟩ :=
        exists_of_letters_eq_joinSegments (isName_of_components_eq hplace) hsub
      rw [(hbelow ss).2 hplace]
      cases ss with
      | nil => exact absurd rfl hne
      | cons s ss => rfl

theorem stepsTo?_eq_some_iff {target base : Path} {n : Nat} {down : List (List Char)} :
    stepsTo? target base = some (n, down) ↔
      ImportPaths.stepsTo? target base = some (n, down.map Text.letters) := by
  rw [ImportPaths.stepsTo?_eq_some_iff, stepsTo?]
  obtain ⟨ds, bs⟩ := dropCommon target.components base.components
  dsimp only
  constructor
  · intro h
    split at h
    · rename_i names segments hback hdown
      cases h
      refine ⟨names, ?_, rfl⟩
      rw [mapM_name?_eq_some_iff.1 hback, mapM_text?_eq_some_iff.1 hdown, map_ofText]
    · cases h
  · rintro ⟨back, hdrop, rfl⟩
    obtain ⟨rfl, rfl⟩ := Prod.mk.inj hdrop
    rw [mapM_name?_eq_some_iff.2 rfl, ← map_ofText, mapM_text?_eq_some_iff.2 rfl]

theorem relativeSpecifier?_eq_some_iff :
    dir.relativeSpecifier? subpath root = some relative ↔
      ImportPaths.relativeSpecifier? dir.letters (Text.letters subpath) root.letters =
        some (Text.letters relative) := by
  unfold relativeSpecifier? ImportPaths.relativeSpecifier?
  rw [isPlainSubpath_letters]
  split
  · simp
  · dsimp only [resolveAlias]
    split
    · simp
    · rw [Option.map_eq_some_iff, Option.map_eq_some_iff]
      constructor
      · rintro ⟨⟨n, down⟩, hsteps, rfl⟩
        refine ⟨(n, down.map Text.letters), stepsTo?_eq_some_iff.1 hsteps, ?_⟩
        rw [letters_climb_append, letters_joinSegments]
      · rintro ⟨⟨n, names⟩, hsteps, hrelative⟩
        obtain ⟨back, hdrop, -⟩ := ImportPaths.stepsTo?_eq_some_iff.1 hsteps
        obtain ⟨down, rfl, rfl⟩ :=
          exists_of_letters_eq_climb (isName_of_dropCommon hdrop) hrelative.symm
        exact ⟨(n, down), stepsTo?_eq_some_iff.2 hsteps, rfl⟩

/-! ## Paths that are texts -/

/-- On paths that are texts it is the translation of `aliasSubpath?`, -/
theorem aliasSubpath?_ofText (dir root : Path) (relative : List Char) :
    (ofText dir.chars).aliasSubpath? relative (ofText root.chars) =
      ImportPaths.aliasSubpath? dir relative root := by
  have hplace : (ImportPaths.resolveRelative (ofText dir.chars).letters
      (Text.letters relative)).components =
        (ImportPaths.resolveRelative dir relative).components.map Component.inLetters :=
    components_anchor_letters dir.chars relative
  have hroot : (ofText root.chars).letters.components = root.components.map Component.inLetters :=
    components_letters root.chars
  refine Option.ext fun subpath => ?_
  rw [aliasSubpath?_eq_some_iff, ImportPaths.aliasSubpath?_eq_some_iff,
    ImportPaths.aliasSubpath?_eq_some_iff, isTranslatable_letters_iff, hplace, hroot]
  refine and_congr_right fun _ => ⟨?_, ?_⟩
  · rintro ⟨names, hne, hnames, hsub⟩
    obtain ⟨front, below, hsplit, hfront, hbelow⟩ := List.map_eq_append_iff.1 hnames
    obtain rfl := List.map_injective_iff.2 Component.inLetters_injective hfront
    obtain ⟨ss, rfl, rfl⟩ := Component.exists_names_of_map_inLetters hbelow
    rw [← letters_joinSegments, letters_inj] at hsub
    exact ⟨ss, by simpa using hne, hsplit, hsub⟩
  · rintro ⟨names, hne, hnames, rfl⟩
    refine ⟨names.map Text.letters, by simpa using hne, ?_, letters_joinSegments names⟩
    rw [hnames, List.map_append, List.map_map, List.map_map]
    rfl

/-- and that of `relativeSpecifier?`. -/
theorem relativeSpecifier?_ofText (dir root : Path) (subpath : List Char) :
    (ofText dir.chars).relativeSpecifier? subpath (ofText root.chars) =
      ImportPaths.relativeSpecifier? dir subpath root := by
  have htarget : (ImportPaths.resolveAlias (ofText root.chars).letters
      (Text.letters subpath)).components =
        (ImportPaths.resolveAlias root subpath).components.map Component.inLetters :=
    components_anchor_letters root.chars subpath
  have hroot : (ofText root.chars).letters.components = root.components.map Component.inLetters :=
    components_letters root.chars
  have hdir : (ofText dir.chars).letters.clean.components =
      dir.clean.components.map Component.inLetters :=
    components_clean_letters dir.chars
  refine Option.ext fun relative => ?_
  rw [relativeSpecifier?_eq_some_iff, ImportPaths.relativeSpecifier?_eq_some_iff,
    ImportPaths.relativeSpecifier?_eq_some_iff, isPlainSubpath_letters, htarget, hroot, hdir,
    List.prefix_map_iff_of_injective Component.inLetters_injective, dropCommon_map_inLetters]
  refine and_congr_right fun _ => and_congr_right fun _ => ⟨?_, ?_⟩
  · rintro ⟨_, _, hdrop, hrel⟩
    obtain ⟨hdrop₁, hdrop₂⟩ := Prod.mk.inj hdrop
    obtain ⟨down, hdown, rfl⟩ := Component.exists_names_of_map_inLetters hdrop₁
    obtain ⟨back, hback, rfl⟩ := Component.exists_names_of_map_inLetters hdrop₂
    rw [List.length_map, ← letters_joinSegments, ← letters_climb_append, letters_inj] at hrel
    exact ⟨down, back, Prod.ext hdown hback, hrel⟩
  · rintro ⟨down, back, hdrop, rfl⟩
    refine ⟨down.map Text.letters, back.map Text.letters, ?_, ?_⟩
    · rw [hdrop, List.map_map, List.map_map, List.map_map, List.map_map]
      rfl
    · rw [List.length_map, letters_climb_append, letters_joinSegments]

/-! ## Which subpaths have a relative specifier -/

/-- Past the longest front that it shares with `here`, what leads to `target` are names that are
texts. -/
def LeadsByTexts (here target : List Component) : Prop :=
  ∃ common, ∃ names : List (List Char),
    IsLongestCommon common here target ∧ target = common ++ names.map .ofText

/-- The specifier that is written for such a place. -/
theorem relativeSpecifier?_eq_climb (hd : dir.letters.isAbsolute = true)
    (hr : root.letters.isAbsolute = true) (hc : root.letters.IsClean)
    (hplain : isPlainSubpath subpath = true) {common : List Component}
    {names : List (List Char)}
    (hcommon : IsLongestCommon common dir.letters.clean.components
      (root.letters.join ⟨Text.letters subpath⟩).components)
    (hnames : (root.letters.join ⟨Text.letters subpath⟩).components =
      common ++ names.map .ofText) :
    dir.relativeSpecifier? subpath root =
      some (climb (dir.letters.clean.components.length - common.length) ++ joinSegments names) := by
  rw [← isPlainSubpath_letters] at hplain
  obtain ⟨common', down, hcommon', hdown, hrel⟩ :=
    exists_relativeSpecifier?_eq_climb hd hr hc hplain
  obtain rfl := hcommon.unique hcommon'
  rw [hnames, map_ofText] at hdown
  obtain rfl : names.map Text.letters = down :=
    Component.map_name_inj.1 (List.append_cancel_left hdown)
  rw [relativeSpecifier?_eq_some_iff, hrel, letters_climb_append, letters_joinSegments]

theorem relativeSpecifier?_isSome_iff (hd : dir.letters.isAbsolute = true)
    (hr : root.letters.isAbsolute = true) (hc : root.letters.IsClean) :
    (dir.relativeSpecifier? subpath root).isSome = true ↔ isPlainSubpath subpath = true ∧
      LeadsByTexts dir.letters.clean.components
        (root.letters.join ⟨Text.letters subpath⟩).components := by
  rw [Option.isSome_iff_exists]
  constructor
  · rintro ⟨relative, h⟩
    rw [relativeSpecifier?_eq_some_iff] at h
    have hplain := (ImportPaths.relativeSpecifier?_eq_some_iff.1 h).1
    obtain ⟨common, down, hcommon, hdown, hrel⟩ :=
      exists_relativeSpecifier?_eq_climb hd hr hc hplain
    obtain ⟨names, -, rfl⟩ := exists_of_letters_eq_climb (isName_of_components_eq hdown)
      (Option.some.inj (h.symm.trans hrel))
    rw [isPlainSubpath_letters] at hplain
    exact ⟨hplain, common, names, hcommon, by rw [hdown, map_ofText]⟩
  · rintro ⟨hplain, common, names, hcommon, hnames⟩
    exact ⟨_, relativeSpecifier?_eq_climb hd hr hc hplain hcommon hnames⟩

/-- Under a root that is a text every place is reached by texts. -/
theorem leadsByTexts_of_root {text : List Char} (hd : dir.letters.isAbsolute = true)
    (hr : (ofText text).letters.isAbsolute = true) (hc : (ofText text).letters.IsClean)
    (hplain : isPlainSubpath subpath = true) :
    LeadsByTexts dir.letters.clean.components
      ((ofText text).letters.join ⟨Text.letters subpath⟩).components := by
  rw [← isPlainSubpath_letters] at hplain
  obtain ⟨common, down, hcommon, hdown, -⟩ := exists_relativeSpecifier?_eq_climb hd hr hc hplain
  refine ⟨common, ?_⟩
  obtain ⟨names, -, hnames, hsub⟩ := isPlainSubpath_iff.1 hplain
  have hplace : ((ofText text).letters.join ⟨Text.letters subpath⟩).components =
      ((⟨text⟩ : Path).components ++ steps subpath).map Component.inLetters := by
    rw [List.map_append, ← steps_letters, ← components_letters]
    exact components_join (chars_ne_nil_of_isAbsolute hr) (hsub ▸ isAbsolute_joinSegments hnames)
  obtain ⟨front, below, -, -, hbelow⟩ := List.map_eq_append_iff.1 (hplace.symm.trans hdown)
  obtain ⟨ss, -, rfl⟩ := Component.exists_names_of_map_inLetters hbelow
  exact ⟨ss, hcommon, by rw [hdown, map_ofText]⟩

/-- Making a specifier relative can be undone, whatever the paths.  When the directory and the root
are absolute and the root is clean, this concerns all plain subpaths with a place that is reached by
texts, and so all plain subpaths when the root is a text: files outside the root as well as places
that are the importing directory or lie above it. -/
theorem aliasSubpath?_leftInverse (dir root : SystemPath) (subpath : List Char) :
    (∀ relative, dir.relativeSpecifier? subpath root = some relative →
        dir.aliasSubpath? relative root = some subpath) ∧
      (dir.letters.isAbsolute = true → root.letters.isAbsolute = true → root.letters.IsClean →
        ((dir.relativeSpecifier? subpath root).isSome = true ↔ isPlainSubpath subpath = true ∧
            LeadsByTexts dir.letters.clean.components
              (root.letters.join ⟨Text.letters subpath⟩).components) ∧
          ((∃ text, root = ofText text) → isPlainSubpath subpath = true →
            (dir.relativeSpecifier? subpath root).isSome = true)) := by
  constructor
  · intro relative h
    rw [relativeSpecifier?_eq_some_iff] at h
    exact aliasSubpath?_eq_some_iff.2 (aliasSubpath?_of_relativeSpecifier? h)
  · intro hd hr hc
    refine ⟨relativeSpecifier?_isSome_iff hd hr hc, ?_⟩
    rintro ⟨text, rfl⟩ hplain
    exact (relativeSpecifier?_isSome_iff hd hr hc).2 ⟨hplain, leadsByTexts_of_root hd hr hc hplain⟩

/-- In a directory below `/p\xFF`, and under this root, what the two share need not be written.  Under
the root `/q`, which is a text, places have specifiers there as well. -/
theorem aliasSubpath?_leftInverse_shared :
    let root : SystemPath := ⟨Text.bytes "/p".toList ++ [0xFF]⟩
    let dir : SystemPath := ⟨root.bytes ++ Text.bytes "//a/../b/".toList⟩
    dir.letters.isAbsolute = true ∧ root.letters.isAbsolute = true ∧ root.letters.IsClean ∧
      dir.relativeSpecifier? "x".toList root = some "../x".toList ∧
      dir.aliasSubpath? "../x".toList root = some "x".toList ∧
      LeadsByTexts dir.letters.clean.components
        (root.letters.join ⟨Text.letters "x".toList⟩).components ∧
      (ofText "/q".toList).letters.isAbsolute = true ∧ (ofText "/q".toList).letters.IsClean ∧
      isPlainSubpath "x".toList = true ∧
      (dir.relativeSpecifier? "x".toList (ofText "/q".toList)).isSome = true := by
  intro root dir
  have hd : dir.letters.isAbsolute = true := by decide
  have hr : root.letters.isAbsolute = true := by decide
  have hc : root.letters.IsClean := by decide
  have hrel : dir.relativeSpecifier? "x".toList root = some "../x".toList := by decide
  obtain ⟨hback, hsome⟩ := aliasSubpath?_leftInverse dir root "x".toList
  have htexts := ((hsome hd hr hc).1.1 (Option.isSome_of_eq_some hrel)).2
  have hr' : (ofText "/q".toList).letters.isAbsolute = true := by decide
  have hc' : (ofText "/q".toList).letters.IsClean := by decide
  have hplain : isPlainSubpath "x".toList = true := by decide
  obtain ⟨-, hall⟩ := (aliasSubpath?_leftInverse dir (ofText "/q".toList) "x".toList).2 hd hr' hc'
  exact ⟨hd, hr, hc, hrel, hback _ hrel, htexts, hr', hc', hplain, hall ⟨_, rfl⟩ hplain⟩

/-- From `/q`, a plain subpath under `/p\xFF` has no relative specifier. -/
theorem relativeSpecifier?_none_of_root :
    let dir := ofText "/q".toList
    let root : SystemPath := ⟨Text.bytes "/p".toList ++ [0xFF]⟩
    dir.letters.isAbsolute = true ∧ root.letters.isAbsolute = true ∧ root.letters.IsClean ∧
      isPlainSubpath "x".toList = true ∧ (dir.relativeSpecifier? "x".toList root).isSome = false := by
  decide

/-- Seen from an absolute directory, a subpath under a clean absolute root has a relative specifier
exactly when it is plain and the place is reached by texts.  The specifier climbs to where the
directory and the place part, by marks for the steps up or the mark of the directory where there are
none, and goes down from there; it leads to the place, and no specifier with fewer steps up does. -/
theorem relativeSpecifier?_least (dir root : SystemPath) (subpath : List Char)
    (hd : dir.letters.isAbsolute = true) (hr : root.letters.isAbsolute = true)
    (hc : root.letters.IsClean) :
    let here := dir.letters.clean.components
    let target := (root.letters.join ⟨Text.letters subpath⟩).components
    (dir.relativeSpecifier? subpath root = none ↔
        ¬(isPlainSubpath subpath = true ∧ LeadsByTexts here target)) ∧
      (isPlainSubpath subpath = true → LeadsByTexts here target →
        ∃ common, ∃ names : List (List Char), IsLongestCommon common here target ∧
          target = common ++ names.map .ofText ∧
          let hops := here.length - common.length
          let relative := (if hops = 0 then sameMark else (List.replicate hops upMark).flatten) ++
            joinSegments names
          dir.relativeSpecifier? subpath root = some relative ∧
            (dir.resolveRelative relative).components = target ∧
            (sameMark <+: relative ↔ here <+: target) ∧
            ∀ n < hops, ∀ plain : List (List Char), (∀ s ∈ plain, IsName s) →
              (dir.resolveRelative ((List.replicate n upMark).flatten ++
                joinSegments plain)).components ≠ target ∧
              (dir.resolveRelative (climb n ++ joinSegments plain)).components ≠ target) := by
  constructor
  · rw [← relativeSpecifier?_isSome_iff hd hr hc, Option.not_isSome_iff_eq_none]
  · rintro hplain ⟨common, names, hcommon, hnames⟩
    have hrel := relativeSpecifier?_eq_climb hd hr hc hplain hcommon hnames
    refine ⟨common, names, hcommon, hnames, hrel, ?_, ?_, ?_⟩
    · rw [← isPlainSubpath_letters] at hplain
      rw [relativeSpecifier?_eq_some_iff] at hrel
      exact (congrArg components (resolveRelative_of_relativeSpecifier? hrel)).trans
        (components_resolveAlias_eq_join hr hc hplain)
    · exact (sameMark_prefix_climb_iff _ _).trans hcommon.length_sub_eq_zero_iff
    · intro n hn plain hplain
      have hletters : ∀ s ∈ plain.map Text.letters, IsName s :=
        List.forall_mem_map.2 fun s hs => isName_letters_iff.2 (hplain s hs)
      have hfar := components_resolveRelative_ne hd hcommon hn hletters
      rwa [← letters_joinSegments, ← letters_upMarks_append, ← letters_climb_append] at hfar

/-- From a directory that is not clean, below `/p\xFF`, to a place under `/p\xFF/q`: the name that is
no text is shared, and without a step up nothing leads there. -/
theorem relativeSpecifier?_least_shared :
    let top : SystemPath := ⟨Text.bytes "/p".toList ++ [0xFF]⟩
    let dir : SystemPath := ⟨top.bytes ++ Text.bytes "//a/../b/".toList⟩
    let root : SystemPath := ⟨top.bytes ++ Text.bytes "/q".toList⟩
    let target := (root.letters.join ⟨Text.letters "x".toList⟩).components
    dir.letters.isAbsolute = true ∧ root.letters.isAbsolute = true ∧ root.letters.IsClean ∧
      dir.relativeSpecifier? "x".toList root = some "../q/x".toList ∧
      (dir.resolveRelative "../q/x".toList).components = target ∧
      ∀ plain : List (List Char), (∀ s ∈ plain, IsName s) →
        (dir.resolveRelative (sameMark ++ joinSegments plain)).components ≠ target := by
  intro top dir root target
  have hd : dir.letters.isAbsolute = true := by decide
  have hr : root.letters.isAbsolute = true := by decide
  have hc : root.letters.IsClean := by decide
  have hanswer : dir.relativeSpecifier? "x".toList root = some "../q/x".toList := by decide
  have hnot : ¬sameMark <+: "../q/x".toList := by decide
  obtain ⟨hnone, hsome⟩ := relativeSpecifier?_least dir root "x".toList hd hr hc
  obtain ⟨hplain, htexts⟩ := not_not.1 (mt hnone.2 (by rw [hanswer]; exact Option.some_ne_none _))
  obtain ⟨common, names, hcommon, -, hrel, hplace, hmark, hfewer⟩ := hsome hplain htexts
  obtain hwritten := Option.some.inj (hanswer.symm.trans hrel)
  rw [← hwritten] at hplace hmark
  refine ⟨hd, hr, hc, hanswer, hplace, ?_⟩
  intro plain hnames
  have hpart := mt hcommon.length_sub_eq_zero_iff.1 (mt hmark.2 hnot)
  exact (hfewer 0 (Nat.pos_of_ne_zero hpart) plain hnames).2

/-- Between two directories neither of which has a text for a name, a plain subpath has no relative
specifier. -/
theorem relativeSpecifier?_none_beside :
    let dir : SystemPath := ⟨Text.bytes "/".toList ++ [0xFE]⟩
    let root : SystemPath := ⟨Text.bytes "/".toList ++ [0xFF]⟩
    dir.letters.isAbsolute = true ∧ root.letters.isAbsolute = true ∧ root.letters.IsClean ∧
      ¬(dir.relativeSpecifier? "x".toList root = none ↔ isPlainSubpath "x".toList = false) := by
  decide

/-! ## Which relative specifiers have a subpath -/

/-- A subpath is written with names that are texts. -/
theorem exists_names_of_aliasSubpath? (h : dir.aliasSubpath? relative root = some subpath) :
    ∃ names : List (List Char),
      (dir.resolveRelative relative).components = root.letters.components ++ names.map .ofText ∧
        subpath = joinSegments names := by
  obtain ⟨-, names, -, hplace, hsub⟩ :=
    ImportPaths.aliasSubpath?_eq_some_iff.1 (aliasSubpath?_eq_some_iff.1 h)
  obtain ⟨ss, hss, rfl⟩ := exists_of_letters_eq_joinSegments (isName_of_components_eq hplace) hsub
  exact ⟨ss, by rw [map_ofText]; exact hplace, hss⟩

theorem aliasSubpath?_isSome_iff (hd : dir.letters.isAbsolute = true)
    (hr : root.letters.isAbsolute = true) :
    (dir.aliasSubpath? relative root).isSome = true ↔
      IsTranslatable relative ∧ (dir.resolveRelative relative).IsBelow root.letters ∧
        ∀ below, (dir.resolveRelative relative).components = root.letters.components ++ below →
          ∀ c ∈ below, ∃ s, c = .ofText s := by
  rw [Option.isSome_iff_exists]
  constructor
  · rintro ⟨subpath, h⟩
    have hin := aliasSubpath?_eq_some_iff.1 h
    obtain ⟨ht, -⟩ := ImportPaths.aliasSubpath?_eq_some_iff.1 hin
    refine ⟨isTranslatable_letters_iff.1 ht, isBelow_of_aliasSubpath? hin, ?_⟩
    intro below hbelow c hc
    obtain ⟨names, hplace, -⟩ := exists_names_of_aliasSubpath? h
    obtain rfl := List.append_cancel_left (hplace.symm.trans hbelow)
    obtain ⟨s, -, rfl⟩ := List.mem_map.1 hc
    exact ⟨s, rfl⟩
  · rintro ⟨ht, hbelow, htexts⟩
    obtain ⟨names, hne, hplace⟩ := exists_names_of_isBelow (isAbsolute_join hd _) hr hbelow
    obtain ⟨ss, hss⟩ := exists_map_ofText (htexts _ hplace)
    rw [map_ofText] at hss
    obtain rfl := Component.map_name_inj.1 hss
    exact ⟨joinSegments ss, aliasSubpath?_eq_some_iff.2 (ImportPaths.aliasSubpath?_eq_some_iff.2
      ⟨isTranslatable_letters_iff.2 ht, _, hne, hplace, letters_joinSegments ss⟩)⟩

/-- From an absolute directory, a relative specifier has a subpath under an absolute root exactly
when its marks are followed by plain segments, or by nothing, the place it names lies strictly below
the root, and the components from there are texts.  The subpath is then made of them, is plain
itself, and names that place. -/
theorem aliasSubpath?_below (dir root : SystemPath) (relative : List Char)
    (hd : dir.letters.isAbsolute = true) (hr : root.letters.isAbsolute = true) :
    let place := (dir.letters.join ⟨Text.letters relative⟩).clean
    ((dir.aliasSubpath? relative root).isSome = true ↔
        (∃ rest, Unmarked relative rest ∧
          (isPlainSubpath rest = true ∨ rest = [] ∧ relative ≠ [])) ∧
        place.IsBelow root.letters ∧
        ∀ below, place.components = root.letters.components ++ below →
          ∀ c ∈ below, ∃ s, c = .ofText s) ∧
      ∀ subpath, dir.aliasSubpath? relative root = some subpath →
        (∃ names : List (List Char),
          place.components = root.letters.components ++ names.map .ofText ∧
            subpath = joinSegments names) ∧
        isPlainSubpath subpath = true ∧
        (root.letters.join ⟨Text.letters subpath⟩).clean = place ∧
        place.IsBelow root.letters := by
  constructor
  · rw [← isTranslatable_iff]
    exact aliasSubpath?_isSome_iff hd hr
  · intro subpath h
    have hin := aliasSubpath?_eq_some_iff.1 h
    have hplain := isPlainSubpath_of_aliasSubpath? hin
    rw [isPlainSubpath_letters] at hplain
    exact ⟨exists_names_of_aliasSubpath? h, hplain, resolveAlias_of_aliasSubpath? hin,
      isBelow_of_aliasSubpath? hin⟩

/-- Out of the directory `/p/\xFF`, whose name need not be written then, into `/p`. -/
theorem aliasSubpath?_below_sibling :
    let dir : SystemPath := ⟨Text.bytes "/p/".toList ++ [0xFF]⟩
    let root := ofText "/p".toList
    let place := (dir.letters.join ⟨Text.letters "../../p/x".toList⟩).clean
    dir.letters.isAbsolute = true ∧ root.letters.isAbsolute = true ∧
      dir.aliasSubpath? "../../p/x".toList root = some "x".toList ∧
      (root.letters.join ⟨Text.letters "x".toList⟩).clean = place ∧
      place.IsBelow root.letters ∧ dir.aliasSubpath? "../../p".toList root = none := by
  intro dir root place
  have hd : dir.letters.isAbsolute = true := by decide
  have hr : root.letters.isAbsolute = true := by decide
  have h : dir.aliasSubpath? "../../p/x".toList root = some "x".toList := by decide
  have hself : ¬(dir.letters.join ⟨Text.letters "../../p".toList⟩).clean.IsBelow root.letters := by
    decide
  obtain ⟨-, -, hplace, hbelow⟩ := (aliasSubpath?_below dir root _ hd hr).2 _ h
  refine ⟨hd, hr, h, hplace, hbelow, ?_⟩
  rw [← Option.not_isSome_iff_eq_none, (aliasSubpath?_below dir root _ hd hr).1]
  rintro ⟨-, hin, -⟩
  exact hself hin

/-- What lies in `/p/\xFF` has no subpath under `/p`, although `./x` has plain segments only and names
a place below the root. -/
theorem aliasSubpath?_none_inside :
    let dir : SystemPath := ⟨Text.bytes "/p/".toList ++ [0xFF]⟩
    let root := ofText "/p".toList
    dir.letters.isAbsolute = true ∧ root.letters.isAbsolute = true ∧ root.letters.IsClean ∧
      Unmarked "./x".toList "x".toList ∧ isPlainSubpath "x".toList = true ∧
      (dir.letters.join ⟨Text.letters "./x".toList⟩).clean.IsBelow root.letters ∧
      (dir.aliasSubpath? "./x".toList root).isSome = false := by
  intro dir root
  exact ⟨by decide, by decide, by decide, Or.inl rfl, by decide, by decide, by decide⟩

end SystemPath

end ImportPaths
