import ImportPaths.Json.Printer
import ImportPaths.Proofs.Json.Grammar
import Mathlib.Tactic.SplitIfs

/-!
# Reading what was written

A value is written by the rules of the format: its strings are marks (`exists_marks`), and the lines
and the indentation between its parts are blanks (`exists_block_eq`).  So its text spells the value
(`Legible.spells_render`), and a value that is fit to be read at all is read back as it was
(`Legible.read?_pretty`).
-/

namespace ImportPaths.Json

open Text (hexDigit hexValue?)

variable {depth : Nat} {v : Value} {gap : List Char}

/-! ## Strings -/

theorem hexValue?_hexDigit : ∀ n < 16, hexValue? (hexDigit n) = some n := by decide

theorem hex4?_hexDigit {n : Nat} (h : n < 256) :
    hex4? '0' '0' (hexDigit (n / 16)) (hexDigit (n % 16)) = some n := by
  have hzero : hexValue? '0' = some 0 := rfl
  rw [hex4?, hzero, hexValue?_hexDigit (n / 16) (by omega), hexValue?_hexDigit (n % 16) (by omega)]
  dsimp only
  congr 1
  omega

/-- A character is written as a mark. -/
theorem exists_mark (c : Char) : ∃ m : Mark, m.text = escape c ∧ m.code = c.toNat := by
  unfold escape
  split_ifs with hquote hback hb ht hn hf hr hcontrol
  -- seven characters have an escape of one letter
  iterate 7
    · subst c
      exact ⟨.short _ _ (by decide), rfl, rfl⟩
  · exact ⟨.unit _ _ _ _ _ (hex4?_hexDigit (by omega)), rfl, rfl⟩
  · exact ⟨.plain c ⟨hquote, hback, Nat.not_lt.1 hcontrol⟩, rfl, rfl⟩

/-- A text in quotes is a row of marks that stand for it. -/
theorem exists_marks (s : List Char) :
    ∃ ms, Mark.quoted ms = quote s ∧ Mark.chars? ms = some s := by
  suffices ∃ ms : List Mark, ms.flatMap Mark.text = s.flatMap escape ∧ Mark.chars? ms = some s by
    obtain ⟨ms, htext, hchars⟩ := this
    exact ⟨ms, by rw [Mark.quoted, htext, quote], hchars⟩
  induction s with
  | nil => exact ⟨[], rfl, rfl⟩
  | cons c s ih =>
    obtain ⟨m, htext, hcode⟩ := exists_mark c
    obtain ⟨ms, htexts, hchars⟩ := ih
    obtain ⟨hhigh, hlow⟩ := Mark.not_surrogate_toNat c
    refine ⟨m :: ms, by rw [List.flatMap_cons, htext, htexts, List.flatMap_cons], ?_⟩
    rw [← hcode] at hhigh hlow
    rw [Mark.chars?_cons m hhigh hlow, hchars, hcode, Char.ofNat_toNat]
    rfl

theorem spells_quote (s : List Char) : Spells (quote s) (some (.string s)) := by
  obtain ⟨ms, htext, hchars⟩ := exists_marks s
  have hspells := Spells.string ms
  rwa [htext, hchars] at hspells

/-! ## Lines -/

theorem renderItems_eq_map (depth : Nat) (vs : List Value) :
    renderItems depth vs = vs.map (Value.render depth) := by
  induction vs with
  | nil => rfl
  | cons v vs ih => rw [renderItems, ih, List.map_cons]

theorem renderMembers_eq_map (depth : Nat) (ms : List (List Char × Value)) :
    renderMembers depth ms = ms.map fun m => quote m.1 ++ ':' :: ' ' :: m.2.render depth := by
  induction ms with
  | nil => rfl
  | cons m ms ih => rw [renderMembers, ih, List.map_cons]

theorem isGap_indent (depth : Nat) : IsGap (indent depth) := by
  intro c hc
  rw [List.eq_of_mem_replicate hc]
  rfl

/-- The line break and the blanks in front of a line. -/
def lineGap (depth : Nat) : Gap :=
  ⟨'\n' :: indent depth, List.forall_mem_cons.2 ⟨rfl, isGap_indent depth⟩⟩

def noGap : Gap := ⟨[], isGap_nil⟩

theorem newline_intercalate {lines : List (List Char)} (hne : lines ≠ []) :
    '\n' :: [',', '\n'].intercalate lines = [','].intercalate (lines.map ('\n' :: ·)) := by
  induction lines with
  | nil => exact absurd rfl hne
  | cons line lines ih =>
    cases lines with
    | nil => rfl
    | cons line' lines =>
      rw [List.map_cons, List.map_cons, List.intercalate_cons_cons, List.intercalate_cons_cons,
        ← List.map_cons, ← ih (List.cons_ne_nil _ _)]
      simp

/-- A block is its lines with commas between them; all else in it is blanks. -/
theorem exists_block_eq (left right : Char) (depth : Nat) (lines : List (List Char)) :
    ∃ gap, block left right depth lines =
      between left right (lines.map ((lineGap (depth + 1)).1 ++ ·)) gap := by
  unfold block
  split
  · rename_i h
    rw [List.isEmpty_iff.1 h]
    exact ⟨noGap, rfl⟩
  · rename_i h
    have hne : lines.map (indent (depth + 1) ++ ·) ≠ [] := by simpa using h
    have hlines := newline_intercalate hne
    rw [List.map_map] at hlines
    have hmap : lines.map ((lineGap (depth + 1)).1 ++ ·) =
        lines.map ((fun line => '\n' :: line) ∘ (indent (depth + 1) ++ ·)) := rfl
    refine ⟨lineGap depth, ?_⟩
    rw [hmap, between, ← hlines]
    rfl

/-! ## Values -/

/-- A value with blanks in front of it. -/
theorem Spells.after_gap {text : List Char} {v : Option Value} (h : Spells text v) (gap : Gap) :
    Spells (gap.1 ++ text) v := by
  have hpadded := h.padded gap noGap
  rwa [noGap, List.append_nil] at hpadded

/-- A value is written by the rules of the format, wherever it stands. -/
theorem Legible.spells_render (h : Legible depth v) (place : Nat) :
    Spells (v.render place) (some v) := by
  induction h generalizing place with
  | null => exact .null
  | bool b => cases b with
    | true => exact .bool true
    | false => exact .bool false
  | number written _ =>
    obtain ⟨n, rfl⟩ := Numeral.exists_readNumber_iff.1 ⟨_, written⟩
    exact .number n
  | string s => exact spells_quote s
  | @array depth items _ ih =>
    obtain ⟨gap, hblock⟩ := exists_block_eq '[' ']' place (renderItems (place + 1) items)
    let written (v : Value) : List Char × Option Value :=
      ((lineGap (place + 1)).1 ++ v.render (place + 1), some v)
    have hspells : Spells _ _ := @Spells.array (items.map written) gap <|
      List.forall_mem_map.2 fun v hv => (ih v hv (place + 1)).after_gap _
    have hvalue : (items.map written).mapM Prod.snd = some items := by
      rw [mapM_eq_some_iff, List.map_map]
      rfl
    rw [hvalue, List.map_map] at hspells
    rw [Value.render, hblock, renderItems_eq_map, List.map_map]
    exact hspells
  | @object depth members _ ih =>
    obtain ⟨gap, hblock⟩ :=
      exists_block_eq '{' '}' place (renderMembers (place + 1) members)
    obtain ⟨marks, hmarks⟩ := Classical.skolem.1 exists_marks
    let blank : Gap := ⟨[' '], List.forall_mem_singleton.2 rfl⟩
    let entry (m : List Char × Value) : Entry :=
      ⟨lineGap (place + 1), marks m.1, noGap, blank.1 ++ m.2.render (place + 1), some m.2⟩
    have hspells : Spells _ _ := @Spells.object (members.map entry) gap <|
      List.forall_mem_map.2 fun m hm => (ih m hm (place + 1)).after_gap blank
    have hvalue : (members.map entry).mapM Entry.member? = some members := by
      rw [mapM_eq_some_iff, List.map_map]
      refine List.map_congr_left ?_
      intro m _
      simp [entry, Entry.member?, Entry.key, hmarks]
    have hlines : (members.map entry).map Entry.written =
        (renderMembers (place + 1) members).map ((lineGap (place + 1)).1 ++ ·) := by
      rw [renderMembers_eq_map, List.map_map, List.map_map]
      refine List.map_congr_left ?_
      intro m _
      simp [entry, blank, noGap, Entry.written, hmarks]
    rw [hvalue, hlines] at hspells
    rw [Value.render, hblock]
    exact hspells

/-- The whole text of a value, perhaps with blanks after it, stands for the value. -/
theorem Legible.read?_pretty (h : Legible maxDepth v) (hgap : IsGap gap) :
    Value.read? (v.pretty ++ gap) = some v := by
  have hspells : Spells (v.pretty ++ gap) (some v) :=
    (h.spells_render 0).padded noGap ⟨gap, hgap⟩
  rw [hspells.read?, keep_of_forall]
  rintro v ⟨⟩
  exact h

end ImportPaths.Json
