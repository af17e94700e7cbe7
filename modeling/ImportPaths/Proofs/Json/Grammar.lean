import ImportPaths.Proofs.Json.Items

/-!
# The grammar of the format

`Spells text v` says by the rules of the format alone that a text is a value, with any blanks
between its parts and any of its characters written as escapes, and that `v` is this value.  The
rules allow an escape for half of a pair of surrogates that stands on its own.  No character is
written so, and then the text has no value and `v` is `none`.

The reader agrees with the rules (`Spells.gives`): it reads the value of a text, and refuses the
text when there is none, or when the value goes too deep or has a number that is too great
(`Legible`).
-/

namespace ImportPaths.Json

/-! ## Texts -/

/-- The blanks between two parts of a text. -/
abbrev Gap := {gap : List Char // IsGap gap}

/-- A member of an object as it is written, with the value that its text has. -/
structure Entry where
  before : Gap
  name : List Mark
  after : Gap
  text : List Char
  value : Option Value

namespace Entry

def written (e : Entry) : List Char :=
  e.before.1 ++ (Mark.quoted e.name ++ (e.after.1 ++ ':' :: e.text))

def key (e : Entry) : Option (List Char) := Mark.chars? e.name

/-- The member of an object, if its name and its value are there. -/
def member? (e : Entry) : Option (List Char × Value) :=
  e.key.bind fun key => e.value.map (key, ·)

end Entry

/-- A list between two signs, with commas between its items. -/
def between (left right : Char) (items : List (List Char)) (gap : Gap) : List Char :=
  left :: ([','].intercalate items ++ (gap.1 ++ [right]))

/-- A text by the rules of the format, and its value. -/
inductive Spells : List Char → Option Value → Prop
  | padded {text : List Char} {v : Option Value} (before after : Gap) (inside : Spells text v) :
      Spells (before.1 ++ (text ++ after.1)) v
  | null : Spells "null".toList (some .null)
  | bool (b : Bool) : Spells (toString b).toList (some (.bool b))
  | number (n : Numeral) : Spells n.text (some (.number n.text))
  | string (ms : List Mark) : Spells (Mark.quoted ms) ((Mark.chars? ms).map .string)
  | array {items : List (List Char × Option Value)} (gap : Gap)
      (inside : ∀ i ∈ items, Spells i.1 i.2) :
      Spells (between '[' ']' (items.map Prod.fst) gap) ((items.mapM Prod.snd).map .array)
  | object {entries : List Entry} (gap : Gap) (inside : ∀ e ∈ entries, Spells e.text e.value) :
      Spells (between '{' '}' (entries.map Entry.written) gap)
        ((entries.mapM Entry.member?).map .object)

/-- A value that is fit to be read, with at most `depth` arrays and objects in one another: each of
its numbers is written as a number, and is within bounds. -/
inductive Legible : Nat → Value → Prop
  | null {depth : Nat} : Legible depth .null
  | bool {depth : Nat} (b : Bool) : Legible depth (.bool b)
  | number {depth : Nat} {literal : List Char} {parts : NumberParts}
      (written : readNumber literal = some (parts, [])) (bounded : parts.inRange = true) :
      Legible depth (.number literal)
  | string {depth : Nat} (s : List Char) : Legible depth (.string s)
  | array {depth : Nat} {items : List Value} (inside : ∀ v ∈ items, Legible depth v) :
      Legible (depth + 1) (.array items)
  | object {depth : Nat} {members : List (List Char × Value)}
      (inside : ∀ m ∈ members, Legible depth m.2) : Legible (depth + 1) (.object members)

/-! ## One value -/

variable {s t gap rest text : List Char} {depth : Nat} {v : Option Value}

theorem readValue_gap (h : IsGap gap) (depth : Nat) (s : List Char) :
    readValue depth (gap ++ s) = readValue depth s := by
  unfold readValue
  rw [skipGap_append h]

/-- The first sign of a value tells what it is: a string, -/
theorem readValue_quote (depth : Nat) (s : List Char) :
    readValue depth ('"' :: s) = (unquote s).map fun (t, s) => (.string t, s) := by
  rw [readValue]
  rfl

/-- an array, -/
theorem readValue_bracket (depth : Nat) (s : List Char) :
    readValue (depth + 1) ('[' :: s) =
      (readList (readValue depth) ']' s).map fun (vs, s) => (.array vs, s) := by
  rw [readValue]
  rfl

/-- or an object. -/
theorem readValue_brace (depth : Nat) (s : List Char) :
    readValue (depth + 1) ('{' :: s) =
      (readList (readMember (readValue depth)) '}' s).map fun (ms, s) => (.object ms, s) := by
  rw [readValue]
  rfl

/-- Where nothing may stand inside a value, there is no array and no object. -/
theorem readValue_zero (s : List Char) :
    readValue 0 ('[' :: s) = none ∧ readValue 0 ('{' :: s) = none := by
  refine ⟨?_, ?_⟩ <;>
  · rw [readValue]
    rfl

theorem exists_cons_of_readNumber {parts : NumberParts} (h : readNumber text = some (parts, [])) :
    ∃ c s, text = c :: s ∧ isGap c = false ∧ ¬IsClosing c := by
  cases text with
  | nil => cases h
  | cons c s =>
    refine ⟨c, s, rfl, ?_, ?_⟩
    · refine Bool.eq_false_iff.2 ?_
      intro hc
      simp only [isGap, Bool.or_eq_true, beq_iff_eq] at hc
      rcases hc with ((rfl | rfl) | rfl) | rfl <;> cases h
    · rintro (rfl | rfl) <;> cases h

theorem readValue_number {parts : NumberParts} (h : readNumber text = some (parts, []))
    (hrest : Ends rest) (depth : Nat) :
    readValue depth (text ++ rest) =
      if parts.inRange then some (.number text, rest) else none := by
  have hread := readNumber_append h hrest
  have hskip : skipGap (text ++ rest) = text ++ rest := by
    obtain ⟨c, s, rfl, hc, -⟩ := exists_cons_of_readNumber h
    exact List.dropWhile_cons_of_neg (by simp [hc])
  rw [readValue, hskip]
  split
  -- no other value starts like a number
  iterate 6
    · rename_i heq
      rw [heq] at hread
      cases hread
  · rw [hread]
    simp

theorem Entry.skipGap_written (e : Entry) (rest : List Char) :
    skipGap (e.written ++ rest) =
      '"' :: (e.name.flatMap Mark.text ++ '"' :: (e.after.1 ++ ':' :: (e.text ++ rest))) := by
  rw [written, List.append_assoc, skipGap_append e.before.2]
  simp [Mark.quoted, skipGap, isGap]

theorem readMember_entry (e : Entry) (value : List Char → Option (Value × List Char))
    (rest : List Char) :
    readMember value (e.written ++ rest) =
      e.key.bind fun key => (value (e.text ++ rest)).map fun (v, s) => ((key, v), s) := by
  have hcolon : skipGap (e.after.1 ++ ':' :: (e.text ++ rest)) = ':' :: (e.text ++ rest) :=
    skipGap_append_cons e.after.2 rfl _
  rw [readMember, e.skipGap_written]
  simp only [Mark.unquote_marks, Entry.key]
  cases Mark.chars? e.name with
  | none => rfl
  | some key => simp [hcolon]

/-- A value does not start with a sign that closes a list. -/
theorem Spells.not_closing {close : Char} (h : Spells text v) (hclose : IsClosing close)
    (rest t : List Char) : skipGap (text ++ rest) ≠ close :: t := by
  have hstart (c : Char) (s : List Char) (hc : isGap c = false ∧ ¬IsClosing c) :
      skipGap (c :: s) ≠ close :: t := by
    rw [skipGap, List.dropWhile_cons_of_neg (by simp [hc.1])]
    intro heq
    rw [(List.cons.inj heq).1] at hc
    exact hc.2 hclose
  induction h generalizing rest with
  | padded before after _ ih =>
    rw [List.append_assoc, skipGap_append before.2, List.append_assoc]
    exact ih (after.1 ++ rest)
  | number n =>
    obtain ⟨parts, hread⟩ := Numeral.exists_readNumber_iff.2 ⟨n, rfl⟩
    obtain ⟨c, s, htext, hc⟩ := exists_cons_of_readNumber hread
    rw [htext]
    exact hstart c _ hc
  | null => exact hstart 'n' _ (by decide)
  | bool b =>
    cases b with
    | true => exact hstart 't' _ (by decide)
    | false => exact hstart 'f' _ (by decide)
  | string ms => exact hstart '"' _ (by decide)
  | array gap _ => exact hstart '[' _ (by decide)
  | object gap _ => exact hstart '{' _ (by decide)

theorem Entry.not_closing (e : Entry) (rest t : List Char) :
    skipGap (e.written ++ rest) ≠ '}' :: t := by
  rw [e.skipGap_written]
  simp

/-! ## All values -/

theorem legible_array_iff {vs : List Value} :
    Legible (depth + 1) (.array vs) ↔ ∀ v ∈ vs, Legible depth v := by
  constructor
  · rintro (_ | _ | _ | _ | ⟨inside⟩ | _)
    exact inside
  · exact .array

theorem legible_object_iff {ms : List (List Char × Value)} :
    Legible (depth + 1) (.object ms) ↔ ∀ m ∈ ms, Legible depth m.2 := by
  constructor
  · rintro (_ | _ | _ | _ | _ | ⟨inside⟩)
    exact inside
  · exact .object

theorem legible_number_iff {parts : NumberParts} (h : readNumber text = some (parts, [])) :
    Legible depth (.number text) ↔ parts.inRange = true := by
  constructor
  · rintro (_ | _ | ⟨written, bounded⟩)
    rw [h] at written
    cases written
    exact bounded
  · exact .number h

/-- The reader makes of a member what it makes of its value. -/
theorem gives_entry {e : Entry}
    (h : Gives (readValue depth) e.text (keep (Legible depth) e.value)) :
    Gives (readMember (readValue depth)) e.written (keep (Legible depth ·.2) e.member?) := by
  intro rest hrest
  obtain ⟨left, hleft, hvalue⟩ := h rest hrest
  refine ⟨left, hleft, ?_⟩
  rw [readMember_entry, hvalue, Entry.member?]
  cases e.key with
  | none => rfl
  | some key =>
    rw [Option.bind_some, Option.bind_some, keep_map, Option.map_map, Option.map_map]
    rfl

/-- The reader makes of a text the value that it spells, if that is fit to be read. -/
theorem Spells.gives (h : Spells text v) (depth : Nat) :
    Gives (readValue depth) text (keep (Legible depth) v) := by
  induction h generalizing depth with
  | padded before after _ ih => exact (ih depth).padded (readValue_gap before.2 depth) after.2
  | null =>
    rw [keep_of_forall (by simp [Legible.null])]
    refine gives_of_eq ?_
    intro rest _
    rw [readValue]
    rfl
  | bool b =>
    rw [keep_of_forall (by simp [Legible.bool])]
    refine gives_of_eq ?_
    intro rest _
    rw [readValue]
    cases b <;> rfl
  | number n =>
    obtain ⟨parts, hread⟩ := Numeral.exists_readNumber_iff.2 ⟨n, rfl⟩
    refine gives_of_eq ?_
    intro rest hrest
    rw [readValue_number hread hrest]
    split
    · rename_i hrange
      rw [keep_of_forall (by simp [legible_number_iff hread, hrange])]
      rfl
    · rename_i hrange
      rw [keep_eq_none (by simp [legible_number_iff hread, hrange])]
      rfl
  | string ms =>
    rw [keep_of_forall (by simp [Legible.string])]
    refine gives_of_eq ?_
    intro rest _
    have hread := Mark.unquote_marks ms rest
    rw [Mark.quoted, List.cons_append, readValue_quote, List.append_assoc, List.singleton_append,
      hread, Option.map_map, Option.map_map]
    rfl
  | @array items gap hitems ih =>
    refine gives_of_eq ?_
    intro rest _
    rw [between, List.cons_append, List.append_assoc, List.append_assoc, List.singleton_append]
    cases depth with
    | zero =>
      rw [(readValue_zero _).1, keep_map, keep_eq_none]
      · rfl
      · rintro vs - (_ | _)
    | succ depth =>
      have hlist := readList_gives (.inl rfl) gap.2 (fun i hi => ih i hi depth)
        (fun i hi => (hitems i hi).not_closing (.inl rfl)) rest
      rw [readValue_bracket, hlist, mapM_keep, keep_map, Option.map_map, Option.map_map]
      simp only [legible_array_iff]
      rfl
  | @object entries gap hentries ih =>
    refine gives_of_eq ?_
    intro rest _
    rw [between, List.cons_append, List.append_assoc, List.append_assoc, List.singleton_append]
    cases depth with
    | zero =>
      rw [(readValue_zero _).2, keep_map, keep_eq_none]
      · rfl
      · rintro ms - (_ | _)
    | succ depth =>
      have hlist := readList_gives (.inr rfl) gap.2 (fun e he => gives_entry (ih e he depth))
        (fun e _ => e.not_closing) rest
      rw [readValue_brace, hlist, mapM_keep, keep_map, Option.map_map, Option.map_map]
      simp only [legible_object_iff]
      rfl

/-- So a whole text is read as the value that it spells. -/
theorem Spells.read? (h : Spells text v) : Value.read? text = keep (Legible maxDepth) v := by
  obtain ⟨left, hleft, hread⟩ := h.gives maxDepth [] ends_nil
  have hnil : skipGap left = [] := hleft
  rw [List.append_nil] at hread
  rw [Value.read?, hread]
  cases keep (Legible maxDepth) v with
  | none => rfl
  | some v => simp [hnil]

end ImportPaths.Json
