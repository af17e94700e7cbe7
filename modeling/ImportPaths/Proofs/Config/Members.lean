import ImportPaths.Proofs.Config.Text
import Mathlib.Data.List.Nodup
import Mathlib.Data.List.Perm.Basic
import Mathlib.Data.Option.Basic

/-!
# Which objects are configurations

A configuration gives each of its five members a value (`value?`).  The members of an object make a
configuration exactly when no name is there twice and the configuration has the given values, and
the defaults where nothing is given (`ofMembers?_eq_some_iff`).  The order of the members plays no
part in this, nor do blanks or escapes in their text, and every value of the right type is fit to be
read (`read?_of_isObject`).
-/

namespace ImportPaths.Config

open Json

/-! ## Members and values -/

/-- All members of a configuration; a `$schema` that is not there is `null`. -/
def members (c : Config) : List (List Char × Value) :=
  [(schemaKey, c.schema.elim .null .string), (scanRootKey, .string c.scanRoot.chars),
    (extensionsKey, .array (c.extensions.map .string)), (aliasPrefixKey, .string c.aliasPrefix),
    (projectRootKey, .string c.projectRoot.chars)]

/-- The value of a member of a configuration. -/
def value? (c : Config) (key : List Char) : Option Value := c.members.lookup key

/-- The members that a configuration may have: extensions are an array of strings, all else is a
string, and only `$schema` may be `null`. -/
inductive Fits : List Char × Value → Prop
  | noSchema : Fits (schemaKey, .null)
  | schema (s : List Char) : Fits (schemaKey, .string s)
  | scanRoot (s : List Char) : Fits (scanRootKey, .string s)
  | extensions (ss : List (List Char)) : Fits (extensionsKey, .array (ss.map .string))
  | aliasPrefix (s : List Char) : Fits (aliasPrefixKey, .string s)
  | projectRoot (s : List Char) : Fits (projectRootKey, .string s)

/-- A configuration takes the values that are given, and the defaults for the others. -/
structure Takes (c : Config) (ms : List (List Char × Value)) : Prop where
  given : ∀ m ∈ ms, c.value? m.1 = some m.2
  absent : ∀ key ∉ ms.map Prod.fst, c.value? key = ({} : Config).value? key

variable {c : Config} {key : List Char} {v : Value} {ms ms' : List (List Char × Value)}

theorem path?_eq_some_iff {p : Path} : path? v = some p ↔ v = .string p.chars := by
  rw [path?, Option.map_eq_some_iff]
  constructor
  · rintro ⟨s, hs, rfl⟩
    exact Value.string?_eq_some_iff.1 hs
  · rintro rfl
    exact ⟨p.chars, rfl, rfl⟩

theorem map_fst_members (c : Config) : c.members.map Prod.fst = keys := rfl

theorem value?_eq_none (c : Config) (h : key ∉ keys) : c.value? key = none := by
  refine List.lookup_eq_none_iff.2 ?_
  intro m hm
  rw [bne_iff_ne]
  rintro rfl
  exact h (c.map_fst_members ▸ List.mem_map_of_mem hm)

/-! ## Making a configuration -/

/-- What is asked of the members with one name. -/
structure TakesAt (c : Config) (ms : List (List Char × Value)) (key : List Char) : Prop where
  once : (ms.map Prod.fst).count key ≤ 1
  given : ∀ m ∈ ms, m.1 = key → c.value? key = some m.2
  absent : key ∉ ms.map Prod.fst → c.value? key = ({} : Config).value? key

theorem member_eq_some_iff {α : Type} {read : Value → Option α} {write : α → Value} {a d : α}
    (hread : ∀ {v a}, read v = some a ↔ v = write a) (hvalue : c.value? key = some (write a))
    (hdefault : ({} : Config).value? key = some (write d)) :
    member ms key read d = some a ↔ c.TakesAt ms key := by
  have hmem (m : List Char × Value) : m ∈ ms.filter (·.1 == key) ↔ m ∈ ms ∧ m.1 = key := by simp
  have hcount : (ms.map Prod.fst).count key = (ms.filter (·.1 == key)).length := by
    rw [List.count_eq_countP, List.countP_map, List.countP_eq_length_filter]
    rfl
  unfold member
  split
  · rename_i hnil
    rw [hnil] at hcount
    have hall : key ∉ ms.map Prod.fst := List.count_eq_zero.1 hcount
    rw [Option.some.injEq]
    constructor
    · rintro rfl
      refine ⟨hcount.trans_le (Nat.zero_le 1), ?_, fun _ => hvalue.trans hdefault.symm⟩
      rintro m hm rfl
      exact absurd (List.mem_map_of_mem hm) hall
    · intro h
      have hwrite := hvalue.symm.trans ((h.absent hall).trans hdefault)
      exact Option.some.inj ((hread.2 rfl).symm.trans (hread.2 (Option.some.inj hwrite).symm))
  · rename_i name v hone
    simp only [hone, List.mem_singleton] at hmem
    obtain ⟨hv, rfl⟩ := (hmem (name, v)).1 rfl
    rw [hread]
    constructor
    · rintro rfl
      refine ⟨by rw [hcount, hone]; rfl, ?_, fun h => absurd (List.mem_map_of_mem hv) h⟩
      intro m hm hname
      rw [(hmem m).2 ⟨hm, hname⟩]
      exact hvalue
    · intro h
      exact Option.some.inj ((h.given _ hv rfl).symm.trans hvalue)
  · rename_i hnil hone
    simp only [reduceCtorEq, false_iff]
    intro h
    have honce := h.once
    rw [hcount] at honce
    cases hfilter : ms.filter (·.1 == key) with
    | nil => exact hnil hfilter
    | cons m rest =>
      cases rest with
      | nil => exact hone m.1 m.2 hfilter
      | cons m' rest =>
        rw [hfilter] at honce
        simp at honce

theorem ofMembers?_eq_some_iff_forall :
    ofMembers? ms = some c ↔ (∀ m ∈ ms, m.1 ∈ keys) ∧ ∀ key ∈ keys, c.TakesAt ms key := by
  have hall : ms.all (fun m => keys.contains m.1) = true ↔ ∀ m ∈ ms, m.1 ∈ keys := by simp
  unfold ofMembers?
  simp only [hall]
  split
  · rename_i hkeys
    rw [and_iff_right hkeys]
    simp only [Option.bind_eq_bind, Option.bind_eq_some_iff, Option.pure_def, Option.some.injEq,
      keys, List.forall_mem_cons]
    constructor
    · rintro ⟨schema, hschema, scanRoot, hscan, extensions, hext, aliasPrefix, halias, projectRoot,
        hproject, rfl⟩
      exact ⟨(member_eq_some_iff Value.nullable?_eq_some_iff rfl rfl).1 hschema,
        (member_eq_some_iff path?_eq_some_iff rfl rfl).1 hscan,
        (member_eq_some_iff Value.strings?_eq_some_iff rfl rfl).1 hext,
        (member_eq_some_iff Value.string?_eq_some_iff rfl rfl).1 halias,
        (member_eq_some_iff path?_eq_some_iff rfl rfl).1 hproject, by simp⟩
    · rintro ⟨hschema, hscan, hext, halias, hproject, -⟩
      exact ⟨c.schema, (member_eq_some_iff Value.nullable?_eq_some_iff rfl rfl).2 hschema,
        c.scanRoot, (member_eq_some_iff path?_eq_some_iff rfl rfl).2 hscan,
        c.extensions, (member_eq_some_iff Value.strings?_eq_some_iff rfl rfl).2 hext,
        c.aliasPrefix, (member_eq_some_iff Value.string?_eq_some_iff rfl rfl).2 halias,
        c.projectRoot, (member_eq_some_iff path?_eq_some_iff rfl rfl).2 hproject, rfl⟩
  · rename_i hkeys
    simp only [reduceCtorEq, false_iff]
    intro h
    exact hkeys h.1

theorem ofMembers?_eq_some_iff :
    ofMembers? ms = some c ↔ (ms.map Prod.fst).Nodup ∧ c.Takes ms := by
  rw [ofMembers?_eq_some_iff_forall]
  constructor
  · rintro ⟨hkeys, htakes⟩
    have hmem : ∀ key ∈ ms.map Prod.fst, key ∈ keys := List.forall_mem_map.2 hkeys
    refine ⟨List.nodup_iff_count_le_one.2 ?_, ?_, ?_⟩
    · intro key
      by_cases hkey : key ∈ keys
      · exact (htakes key hkey).once
      · rw [List.count_eq_zero_of_not_mem fun h => hkey (hmem key h)]
        exact Nat.zero_le 1
    · intro m hm
      exact (htakes m.1 (hkeys m hm)).given m hm rfl
    · intro key hkey
      by_cases hknown : key ∈ keys
      · exact (htakes key hknown).absent hkey
      · rw [value?_eq_none _ hknown, value?_eq_none _ hknown]
  · rintro ⟨hnodup, htakes⟩
    refine ⟨?_, ?_⟩
    · intro m hm
      by_contra hkey
      have hvalue := htakes.given m hm
      rw [value?_eq_none c hkey] at hvalue
      cases hvalue
    · intro key _
      refine ⟨List.nodup_iff_count_le_one.1 hnodup key, ?_, htakes.absent key⟩
      rintro m hm rfl
      exact htakes.given m hm

/-! ## Values of the right type -/

theorem fits_of_value? (h : c.value? key = some v) : Fits (key, v) := by
  have hmem : (key, v) ∈ c.members := by
    obtain ⟨before, after, heq, -⟩ := List.lookup_eq_some_iff.1 h
    rw [heq]
    exact List.mem_append_right _ List.mem_cons_self
  simp only [members, List.mem_cons, Prod.mk.injEq, List.not_mem_nil, or_false] at hmem
  rcases hmem with ⟨rfl, rfl⟩ | ⟨rfl, rfl⟩ | ⟨rfl, rfl⟩ | ⟨rfl, rfl⟩ | ⟨rfl, rfl⟩
  · cases c.schema with
    | none => exact .noSchema
    | some s => exact .schema s
  · exact .scanRoot _
  · exact .extensions _
  · exact .aliasPrefix _
  · exact .projectRoot _

/-- A change of one member leaves the others alone. -/
theorem value?_of_filter {c' : Config} {name : List Char}
    (h : c'.members.filter (·.1 != name) = c.members.filter (·.1 != name)) (hne : key ≠ name) :
    c'.value? key = c.value? key := by
  have hlookup (l : List (List Char × Value)) :
      l.lookup key = (l.filter (·.1 != name)).lookup key := by
    induction l with
    | nil => rfl
    | cons m l ih =>
      by_cases hm : m.1 = name
      · rw [List.lookup_cons, List.filter_cons_of_neg (by simp [hm]), ih, hm, beq_false_of_ne hne]
      · rw [List.lookup_cons, List.filter_cons_of_pos (by simp [hm]), List.lookup_cons, ih]
  rw [value?, value?, hlookup, h, ← hlookup]

/-- A configuration can be given any value of the right type, and keeps the others. -/
theorem Fits.exists_value? {m : List Char × Value} (h : Fits m) (c : Config) :
    ∃ c' : Config, c'.value? m.1 = some m.2 ∧ ∀ key ≠ m.1, c'.value? key = c.value? key := by
  cases h with
  | noSchema => exact ⟨{ c with schema := none }, rfl, fun _ => value?_of_filter rfl⟩
  | schema s => exact ⟨{ c with schema := some s }, rfl, fun _ => value?_of_filter rfl⟩
  | scanRoot s => exact ⟨{ c with scanRoot := ⟨s⟩ }, rfl, fun _ => value?_of_filter rfl⟩
  | extensions ss => exact ⟨{ c with extensions := ss }, rfl, fun _ => value?_of_filter rfl⟩
  | aliasPrefix s => exact ⟨{ c with aliasPrefix := s }, rfl, fun _ => value?_of_filter rfl⟩
  | projectRoot s => exact ⟨{ c with projectRoot := ⟨s⟩ }, rfl, fun _ => value?_of_filter rfl⟩

theorem exists_takes (hnodup : (ms.map Prod.fst).Nodup) (hfits : ∀ m ∈ ms, Fits m) :
    ∃ c : Config, c.Takes ms := by
  induction ms with
  | nil => exact ⟨{}, by simp, fun _ _ => rfl⟩
  | cons m ms ih =>
    obtain ⟨hnot, hnodup⟩ := List.nodup_cons.1 hnodup
    obtain ⟨hm, hms⟩ := List.forall_mem_cons.1 hfits
    obtain ⟨c, hc⟩ := ih hnodup hms
    obtain ⟨c', hvalue, hother⟩ := hm.exists_value? c
    refine ⟨c', List.forall_mem_cons.2 ⟨hvalue, ?_⟩, ?_⟩
    · intro m' hm'
      rw [hother]
      · exact hc.given m' hm'
      · intro heq
        exact hnot (heq ▸ List.mem_map_of_mem hm')
    · intro key hkey
      rw [List.map_cons, List.mem_cons, not_or] at hkey
      rw [hother key hkey.1]
      exact hc.absent key hkey.2

theorem Takes.perm (h : c.Takes ms) (hperm : ms'.Perm ms) : c.Takes ms' where
  given m hm := h.given m (hperm.subset hm)
  absent key hkey := h.absent key fun hmem => hkey ((hperm.map Prod.fst).symm.subset hmem)

/-- The order of the members makes no difference. -/
theorem ofMembers?_of_perm (hperm : ms'.Perm ms) : ofMembers? ms' = ofMembers? ms := by
  refine Option.ext fun c => ?_
  rw [ofMembers?_eq_some_iff, ofMembers?_eq_some_iff, (hperm.map Prod.fst).nodup_iff]
  exact and_congr_right fun _ => ⟨fun h => h.perm hperm.symm, fun h => h.perm hperm⟩

theorem legible_of_fits {m : List Char × Value} (h : Fits m) (depth : Nat) :
    Legible (depth + 1) m.2 := by
  cases h with
  | noSchema => exact .null
  | schema s | scanRoot s | aliasPrefix s | projectRoot s => exact .string s
  | extensions ss => exact legible_strings ss depth

/-! ## Texts of objects -/

/-- The text of an object with the given members, by the rules of the format. -/
def IsObject (entries : List Entry) (text : List Char) : Prop :=
  (∀ e ∈ entries, Spells e.text e.value) ∧ ∃ before gap after : Gap,
    text = before.1 ++ (between '{' '}' (entries.map Entry.written) gap ++ after.1)

variable {entries entries' : List Entry} {text text' : List Char}

/-- Only the members of an object matter, and not how they are written. -/
theorem read?_of_isObject (h : IsObject entries text) :
    read? text = (entries.mapM Entry.member?).bind ofMembers? := by
  obtain ⟨hentries, before, gap, after, rfl⟩ := h
  have hspells := (Spells.object gap hentries).padded before after
  rw [read?, hspells.read?]
  cases entries.mapM Entry.member? with
  | none => rfl
  | some ms =>
    rw [Option.map_some, Option.bind_some]
    by_cases hlegible : Legible maxDepth (.object ms)
    · rw [keep_of_forall (by simpa using hlegible)]
      rfl
    · -- what is not fit to be read has not the right types either
      rw [keep_eq_none (by simpa using hlegible)]
      refine (Option.eq_none_iff_forall_ne_some.2 ?_).symm
      intro c hc
      obtain ⟨-, htakes⟩ := ofMembers?_eq_some_iff.1 hc
      refine hlegible (.object ?_)
      intro m hm
      exact legible_of_fits (fits_of_value? (htakes.given m hm)) 125

theorem read?_eq_some_iff (h : IsObject entries text) :
    read? text = some c ↔
      ∃ ms, entries.map Entry.member? = ms.map some ∧ (ms.map Prod.fst).Nodup ∧ c.Takes ms := by
  simp only [read?_of_isObject h, Option.bind_eq_some_iff, mapM_eq_some_iff, ofMembers?_eq_some_iff]

theorem map_key_eq (h : entries.map Entry.member? = ms.map some) :
    entries.map Entry.key = (ms.map Prod.fst).map some := by
  have hkey : ∀ e ∈ entries, e.key = e.member?.map Prod.fst := by
    intro e he
    obtain ⟨m, hm, -⟩ := (forall_mem_of_map_eq h).2 (fun m hm => hm) e he
    obtain ⟨key, hkey, hvalue⟩ := Option.bind_eq_some_iff.1 hm
    obtain ⟨v, -, rfl⟩ := Option.map_eq_some_iff.1 hvalue
    rw [hm, hkey]
    rfl
  calc entries.map Entry.key
      = (entries.map Entry.member?).map (Option.map Prod.fst) := by
        rw [List.map_map]
        exact List.map_congr_left hkey
    _ = (ms.map Prod.fst).map some := by
        rw [h, List.map_map, List.map_map]
        rfl

/-- A text with the same members, in any order, is read as the same configuration. -/
theorem read?_of_perm (h : IsObject entries text) (h' : IsObject entries' text')
    (hperm : (entries'.map Entry.member?).Perm (entries.map Entry.member?))
    (hread : read? text = some c) : read? text' = some c := by
  obtain ⟨ms, hms, hc⟩ := (read?_eq_some_iff h).1 hread
  rw [hms] at hperm
  have hsome : ∀ e ∈ entries', ∃ m, e.member? = some m := by
    intro e he
    obtain ⟨m, -, hm⟩ := List.mem_map.1 (hperm.subset (List.mem_map_of_mem he))
    exact ⟨m, hm.symm⟩
  obtain ⟨ms', hms'⟩ := exists_map_eq hsome
  rw [hms', List.map_perm_map_iff (Option.some_injective _)] at hperm
  rw [read?_of_isObject h', mapM_eq_some_iff.2 hms', Option.bind_some, ofMembers?_of_perm hperm]
  exact ofMembers?_eq_some_iff.2 hc

/-- The text of an object, with any members in any order, any blanks and any escapes, is read as a
configuration exactly when no name is there twice and every member is a known one with a value of
its type; where half of a pair of surrogates stands on its own, there is no text and so no such
value.  The configuration takes the given values, and the defaults for the members that are not
there.  Another text with the same members, in another order or written in another way, is read as
the same. -/
theorem read?_object (h : IsObject entries text) :
    ((∃ c, read? text = some c) ↔
      (entries.map Entry.key).Nodup ∧ ∀ e ∈ entries, ∃ m, e.member? = some m ∧ Fits m) ∧
    (∀ c, read? text = some c →
      (∀ e ∈ entries, ∃ m, e.member? = some m ∧ c.value? m.1 = some m.2) ∧
      ∀ key, some key ∉ entries.map Entry.key → c.value? key = ({} : Config).value? key) ∧
    ∀ entries' text', IsObject entries' text' →
      (entries'.map Entry.member?).Perm (entries.map Entry.member?) →
      read? text' = read? text := by
  refine ⟨⟨?_, ?_⟩, ?_, ?_⟩
  · rintro ⟨c, hread⟩
    obtain ⟨ms, hms, hnodup, htakes⟩ := (read?_eq_some_iff h).1 hread
    refine ⟨?_, (forall_mem_of_map_eq hms).2 fun m hm => fits_of_value? (htakes.given m hm)⟩
    rw [map_key_eq hms]
    exact hnodup.map (Option.some_injective _)
  · rintro ⟨hnodup, hfits⟩
    obtain ⟨ms, hms⟩ := exists_map_eq fun e he => (hfits e he).imp fun _ => And.left
    rw [map_key_eq hms, List.nodup_map_iff (Option.some_injective _)] at hnodup
    obtain ⟨c, hc⟩ := exists_takes hnodup ((forall_mem_of_map_eq hms).1 hfits)
    exact ⟨c, (read?_eq_some_iff h).2 ⟨ms, hms, hnodup, hc⟩⟩
  · intro c hread
    obtain ⟨ms, hms, -, htakes⟩ := (read?_eq_some_iff h).1 hread
    refine ⟨(forall_mem_of_map_eq hms).2 htakes.given, ?_⟩
    intro key hkey
    refine htakes.absent key ?_
    intro hin
    rw [map_key_eq hms] at hkey
    exact hkey (List.mem_map_of_mem hin)
  · intro entries' text' h' hperm
    refine Option.ext fun c => ⟨?_, ?_⟩
    · exact read?_of_perm h' h hperm.symm
    · exact read?_of_perm h h' hperm

/-- The same two members in another order, with blanks between their parts and an escape for a
letter. -/
theorem read?_object_reordered :
    let text := "\x7b\"scanRoot\":\"a\",\"$schema\":null\x7d".toList
    let text' := "\x7b \"$schema\" : null,\n\"scanRoot\":\"\\u0061\" \x7d".toList
    (∃ c, read? text = some c) ∧ read? text' = read? text := by
  intro text text'
  let blank : Gap := ⟨[' '], List.forall_mem_singleton.2 rfl⟩
  let line : Gap := ⟨['\n'], List.forall_mem_singleton.2 rfl⟩
  obtain ⟨root, hrootText, hroot⟩ := exists_marks scanRootKey
  obtain ⟨schema, hschemaText, hschema⟩ := exists_marks schemaKey
  let plain : Mark := .plain 'a' (by decide)
  let escaped : Mark := .unit '0' '0' '6' '1' 0x61 (by decide)
  let entries : List Entry := [
    ⟨noGap, root, noGap, Mark.quoted [plain], some (.string ['a'])⟩,
    ⟨noGap, schema, noGap, "null".toList, some .null⟩]
  let entries' : List Entry := [
    ⟨blank, schema, blank, " null".toList, some .null⟩,
    ⟨line, root, noGap, Mark.quoted [escaped], some (.string ['a'])⟩]
  have hobject : IsObject entries text := by
    refine ⟨?_, noGap, noGap, noGap, ?_⟩
    · exact List.forall_mem_cons.2 ⟨.string [plain], List.forall_mem_singleton.2 .null⟩
    · simp only [entries, List.map_cons, List.map_nil, Entry.written, hrootText, hschemaText]
      rfl
  have hobject' : IsObject entries' text' := by
    refine ⟨?_, noGap, blank, noGap, ?_⟩
    · exact List.forall_mem_cons.2
        ⟨.padded blank noGap .null, List.forall_mem_singleton.2 (.string [escaped])⟩
    · simp only [entries', List.map_cons, List.map_nil, Entry.written, hrootText, hschemaText]
      rfl
  let ms : List (List Char × Value) := [(scanRootKey, .string ['a']), (schemaKey, .null)]
  have hmembers : entries.map Entry.member? = ms.map some := by
    simp [entries, ms, Entry.member?, Entry.key, hroot, hschema]
  have hmembers' : (entries'.map Entry.member?).Perm (ms.map some) := by
    simp only [entries', List.map_cons, List.map_nil, Entry.member?, Entry.key, hroot, hschema]
    exact .swap _ _ _
  have hfits : ∀ m ∈ ms, Fits m :=
    List.forall_mem_cons.2 ⟨.scanRoot _, List.forall_mem_singleton.2 .noSchema⟩
  have hnodup : (entries.map Entry.key).Nodup := by
    rw [map_key_eq hmembers]
    decide
  obtain ⟨hexists, -, hsame⟩ := read?_object hobject
  refine ⟨hexists.2 ⟨hnodup, (forall_mem_of_map_eq hmembers).2 hfits⟩, ?_⟩
  refine hsame entries' text' hobject' ?_
  rw [hmembers]
  exact hmembers'

/-- A known member with a string for its value, by the rules of the format.  The string is an escape
for half of a pair and stands for no text, and there is no configuration. -/
theorem read?_object_lone_half :
    let text := "\x7b\"scanRoot\":\"\\ud800\"\x7d".toList
    ∃ e : Entry, ∃ half : Mark, IsObject [e] text ∧ e.key = some scanRootKey ∧
      e.text = Mark.quoted [half] ∧ read? text = none := by
  intro text
  obtain ⟨root, hrootText, hroot⟩ := exists_marks scanRootKey
  let half : Mark := .unit 'd' '8' '0' '0' 0xD800 (by decide)
  let e : Entry := ⟨noGap, root, noGap, Mark.quoted [half], none⟩
  have hobject : IsObject [e] text := by
    refine ⟨List.forall_mem_singleton.2 (.string [half]), noGap, noGap, noGap, ?_⟩
    simp only [e, List.map_cons, List.map_nil, Entry.written, hrootText]
    rfl
  refine ⟨e, half, hobject, hroot, rfl, ?_⟩
  rw [read?_of_isObject hobject]
  simp [e, Entry.member?]

end ImportPaths.Config
