import ImportPaths.Proofs.Path.Components
import ImportPaths.Proofs.Token.Kept

/-!
# Extensions that select files

What follows the last dot of a file name never holds a dot itself (`Path.extension?_eq_some_iff`),
but an extension may be written and kept with dots inside it.  No file is looked at for the sake of
such an extension: a file that is named after it is judged by what follows its last dot
(`Settings.selects_named_iff`).
-/

namespace ImportPaths

/-! ## The last dot -/

namespace Text

variable {c : Char} {s front back : List Char}

theorem splitLast?_append (front : List Char) (h : c ∉ back) :
    splitLast? c (front ++ c :: back) = some (front, back) := by
  have hother : ∀ d ∈ back.reverse, (d != c) = true := by
    intro d hd
    rw [bne_iff_ne]
    rintro rfl
    exact h (List.mem_reverse.1 hd)
  have hrev : (front ++ c :: back).reverse = back.reverse ++ c :: front.reverse := by simp
  rw [splitLast?, hrev, List.dropWhile_append_of_pos hother, List.takeWhile_append_of_pos hother,
    List.dropWhile_cons_of_neg (by simp), List.takeWhile_cons_of_neg (by simp)]
  simp

theorem splitLast?_eq_none (h : c ∉ s) : splitLast? c s = none := by
  have hall : s.reverse.dropWhile (· != c) = [] := by
    rw [List.dropWhile_eq_nil_iff]
    intro d hd
    rw [bne_iff_ne]
    rintro rfl
    exact h (List.mem_reverse.1 hd)
  rw [splitLast?, hall]

/-- Where a character stands in a text, it stands somewhere for the last time. -/
theorem exists_last (h : c ∈ s) : ∃ front back, s = front ++ c :: back ∧ c ∉ back := by
  obtain ⟨as, bs, hs, has⟩ := List.eq_append_cons_of_mem (List.mem_reverse.2 h)
  refine ⟨bs.reverse, as.reverse, ?_, by simpa using has⟩
  rw [← List.reverse_reverse s, hs]
  simp

/-- A text is cut at a character where it stands for the last time. -/
theorem splitLast?_eq_some_iff :
    splitLast? c s = some (front, back) ↔ s = front ++ c :: back ∧ c ∉ back := by
  constructor
  · intro h
    by_cases hc : c ∈ s
    · obtain ⟨front', back', rfl, hlast⟩ := exists_last hc
      rw [splitLast?_append front' hlast] at h
      cases h
      exact ⟨rfl, hlast⟩
    · rw [splitLast?_eq_none hc] at h
      cases h
  · rintro ⟨rfl, h⟩
    exact splitLast?_append front h

end Text

/-! ## The extension of a path -/

namespace Path

variable {p : Path} {s : Segment} {ext : List Char}

/-- The file name is the last component, when that is a name. -/
theorem fileName?_eq (p : Path) : p.fileName? = p.components.getLast?.bind Component.name? := by
  rw [fileName?, components, List.getLast?_append]
  cases (p.layout.body.filterMap Component.ofSegment?).getLast? with
  | some c => rfl
  | none =>
    -- what comes before the body is no name
    unfold Layout.front
    split
    · rfl
    · split <;> rfl

/-- A name that is joined to a path is its file name. -/
theorem fileName?_join (p : Path) (hs : IsName s) : (p.join ⟨s⟩).fileName? = some s := by
  rw [fileName?_eq]
  by_cases hp : p.chars = []
  · rw [join, if_pos (by simp [hp]), components_eq, steps_name hs, List.getLast?_concat]
    rfl
  · rw [components_join hp (isAbsolute_name hs), steps_name hs, List.getLast?_concat]
    rfl

/-- The extension of a path is what follows the last dot of its file name, when something stands
before that dot. -/
theorem extension?_eq_some_iff :
    p.extension? = some ext ↔
      ∃ stem, stem ≠ [] ∧ p.fileName? = some (stem ++ '.' :: ext) ∧ '.' ∉ ext := by
  rw [extension?, Option.bind_eq_some_iff]
  constructor
  · rintro ⟨name, hname, h⟩
    rcases hsplit : Text.splitLast? '.' name with _ | ⟨_ | ⟨c, stem⟩, back⟩
    · simp [hsplit] at h
    · simp [hsplit] at h
    · rw [hsplit] at h
      cases h
      obtain ⟨rfl, hdot⟩ := Text.splitLast?_eq_some_iff.1 hsplit
      exact ⟨_, List.cons_ne_nil c stem, hname, hdot⟩
  · rintro ⟨stem, hne, hname, hdot⟩
    refine ⟨_, hname, ?_⟩
    rw [Text.splitLast?_append stem hdot]
    cases stem with
    | nil => exact absurd rfl hne
    | cons c stem => rfl

/-- A file name with a dot in it and something before the first one. -/
theorem isName_of_dot {stem : List Char} (hstem : stem ≠ []) (hslash : '/' ∉ stem) (hne : ext ≠ [])
    (hext : '/' ∉ ext) : IsName (stem ++ '.' :: ext) := by
  have hlength : 3 ≤ (stem ++ '.' :: ext).length := by
    have h1 := List.length_pos_iff.2 hstem
    have h2 := List.length_pos_iff.2 hne
    simp only [List.length_append, List.length_cons]
    omega
  refine ⟨isPlainSegment_iff.2 ⟨?_, ?_, ?_⟩, by simp [hslash, hext]⟩
  all_goals
    intro h
    rw [h] at hlength
    simp at hlength

end Path

/-! ## Extensions that are kept -/

namespace Settings

variable {s : Settings} {p : Path} {written ext : List Char}

theorem selects_iff : s.selects p = true ↔ ∃ ext, p.extension? = some ext ∧ ext ∈ s.extensions := by
  rw [selects, Option.any_eq_true]
  simp only [List.contains_iff_mem]

/-- An extension that can be read is kept. -/
theorem mem_withExtensions {exts : List (List Char)} (h : Extension.parse written = .ok ext)
    (hmem : written ∈ exts) : ext ∈ (s.withExtensions exts).extensions := by
  obtain ⟨rfl, hne, -⟩ := Extension.parse_eq_ok_iff.1 h
  refine List.mem_filter.2 ⟨List.mem_map_of_mem hmem, ?_⟩
  simpa using hne

/-- A file that is named after an extension is judged by what follows its last dot. -/
theorem selects_join_iff (dir : Path) {stem : List Char} (h : Extension.parse written = .ok ext)
    (hmem : ext ∈ s.extensions) (hstem : stem ≠ []) (hslash : '/' ∉ stem) :
    s.selects (dir.join ⟨stem ++ '.' :: ext⟩) = true ↔
      '.' ∉ ext ∨ ∃ front last, ext = front ++ '.' :: last ∧ '.' ∉ last ∧ last ∈ s.extensions := by
  obtain ⟨-, hne, hchars⟩ := Extension.parse_eq_ok_iff.1 h
  have hext : '/' ∉ ext := fun hc => absurd (hchars '/' hc).1 (by decide)
  have hfile := Path.fileName?_join dir (Path.isName_of_dot hstem hslash hne hext)
  rw [selects_iff]
  simp only [Path.extension?_eq_some_iff, hfile, Option.some.injEq]
  constructor
  · rintro ⟨e, ⟨stem', -, hname, he⟩, hin⟩
    by_cases hdot : '.' ∈ ext
    · obtain ⟨front, last, rfl, hlast⟩ := Text.exists_last hdot
      have hcut := Text.splitLast?_eq_some_iff.2 ⟨hname, he⟩
      rw [List.append_cons, ← List.append_assoc, Text.splitLast?_append _ hlast] at hcut
      obtain ⟨-, rfl⟩ := Prod.mk.inj (Option.some.inj hcut)
      exact Or.inr ⟨front, last, rfl, hlast, hin⟩
    · exact Or.inl hdot
  · rintro (hdot | ⟨front, last, rfl, hlast, hin⟩)
    · exact ⟨ext, ⟨stem, hstem, rfl, hdot⟩, hmem⟩
    · exact ⟨last, ⟨stem ++ '.' :: front, by simp, by simp, hlast⟩, hin⟩

/-- An extension that can be read is kept in settings.  Where it has no dot inside, every file that
is named after it is selected.  Where it has one, such a file is selected only for the sake of
another extension, the text behind its last dot, and no file at all when there is no other. -/
theorem selects_named_iff (s : Settings) (written ext : List Char)
    (h : Extension.parse written = .ok ext) :
    (∀ exts, written ∈ exts → ext ∈ (s.withExtensions exts).extensions) ∧
      (ext ∈ s.extensions → ∀ (dir : Path) (stem : List Char), stem ≠ [] → '/' ∉ stem →
        (s.selects (dir.join ⟨stem ++ '.' :: ext⟩) = true ↔ '.' ∉ ext ∨
          ∃ front last, ext = front ++ '.' :: last ∧ '.' ∉ last ∧ last ∈ s.extensions)) ∧
      (s.extensions = [ext] → ((∃ p, s.selects p = true) ↔ '.' ∉ ext)) := by
  refine ⟨fun exts => mem_withExtensions h, ?_, ?_⟩
  · intro hmem dir stem hstem hslash
    exact selects_join_iff dir h hmem hstem hslash
  · intro hone
    constructor
    · rintro ⟨p, hp⟩
      obtain ⟨e, he, hin⟩ := selects_iff.1 hp
      obtain ⟨-, -, -, hdot⟩ := Path.extension?_eq_some_iff.1 he
      rw [hone, List.mem_singleton] at hin
      exact hin ▸ hdot
    · intro hdot
      have hmem : ext ∈ s.extensions := hone ▸ List.mem_singleton_self ext
      have hx : '/' ∉ ['x'] := by decide
      exact ⟨_, (selects_join_iff ⟨[]⟩ h hmem (List.cons_ne_nil _ _) hx).2 (Or.inl hdot)⟩

/-- An extension with a dot inside beside the one that its last dot leaves, and alone. -/
theorem selects_named_iff_declaration :
    let s := withExtensions {} ["ts".toList, ".d.ts".toList]
    Extension.parse ".d.ts".toList = .ok "d.ts".toList ∧ "d.ts".toList ∈ s.extensions ∧
      s.selects ((Path.ofString "/p").join ⟨"x".toList ++ '.' :: "d.ts".toList⟩) = true ∧
      ¬∃ p, ({ s with extensions := ["d.ts".toList] } : Settings).selects p = true := by
  intro s
  have hparse : Extension.parse ".d.ts".toList = .ok "d.ts".toList := by decide
  obtain ⟨hkept, hnamed, -⟩ := selects_named_iff s _ _ hparse
  obtain ⟨-, -, halone⟩ := selects_named_iff { s with extensions := ["d.ts".toList] } _ _ hparse
  have hmem : "d.ts".toList ∈ s.extensions := hkept ["ts".toList, ".d.ts".toList] (by decide)
  refine ⟨hparse, hmem, ?_, ?_⟩
  · refine (hnamed hmem _ _ (by decide) (by decide)).2 (Or.inr ?_)
    exact ⟨"d".toList, "ts".toList, rfl, by decide, by decide⟩
  · rw [halone rfl]
    decide

/-- So an extension may be accepted that selects no file, not even those that are named after
it. -/
theorem dotted_extension_selects_nothing :
    let s : Settings := { extensions := ["d.ts".toList] }
    Extension.parse "d.ts".toList = .ok "d.ts".toList ∧ "d.ts".toList ∈ s.extensions ∧
      s.check = .ok () ∧
      s.selects ((Path.ofString "/p").join ⟨"x".toList ++ '.' :: "d.ts".toList⟩) = false := by
  decide

end Settings

end ImportPaths
