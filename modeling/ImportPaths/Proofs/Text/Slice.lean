import ImportPaths.Proofs.Text.Bytes
import ImportPaths.Proofs.Text.Splice

/-!
# Slices of a text

A stretch of bytes can be cut out of a text only where it starts and ends between two characters.
`slice?` checks the bytes at both ends, and fails where one of them is inside a character or the
ends are in the wrong order; what it cuts out is always a text again (`slice?_bytes_eq_some_iff`).

`Edit.splice?` makes edits with such slices alone.  Where the edits come one after the other, and
start and end between two characters, no slice fails (`Edit.Fit.splice?_eq`).
-/

namespace ImportPaths

namespace Text

variable {s : List Char} {w : List UInt8} {m n : Nat}

/-! ## Boundaries -/

/-- Whether an offset is the end of a text or that of a byte with which a character starts. -/
def isBoundary (text : List UInt8) (n : Nat) : Bool :=
  match text[n]? with
  | some b => decide b.IsUTF8FirstByte
  | none => n == text.length

theorem isBoundary_length (text : List UInt8) : isBoundary text text.length = true := by
  simp [isBoundary]

theorem le_length_of_isBoundary {text : List UInt8} (h : isBoundary text n = true) :
    n ≤ text.length := by
  unfold isBoundary at h
  split at h
  · rename_i hb
    exact Nat.le_of_lt (List.getElem?_eq_some_iff.1 hb).1
  · exact Nat.le_of_eq (eq_of_beq h)

/-- After the first character the boundaries are those of what follows it, -/
theorem isBoundary_bytes_cons_add (c : Char) (s : List Char) (n : Nat) :
    isBoundary (bytes (c :: s)) (c.utf8Size + n) = isBoundary (bytes s) n := by
  have hlength := String.length_utf8EncodeChar c
  have hat : (bytes (c :: s))[c.utf8Size + n]? = (bytes s)[n]? := by
    rw [bytes_cons, List.getElem?_append_right (by omega), hlength, Nat.add_sub_cancel_left]
  rw [isBoundary, isBoundary, hat, bytes_cons, List.length_append, hlength]
  cases (bytes s)[n]? <;> simp

/-- and inside of it only its start is one. -/
theorem isBoundary_bytes_cons_of_lt {c : Char} (h : n < c.utf8Size) :
    isBoundary (bytes (c :: s)) n = true ↔ n = 0 := by
  have hlt : n < (String.utf8EncodeChar c).length := by rwa [String.length_utf8EncodeChar]
  have hat : (bytes (c :: s))[n]? = some (String.utf8EncodeChar c)[n] := by
    rw [bytes_cons, List.getElem?_append_left hlt, List.getElem?_eq_getElem hlt]
  rw [isBoundary, hat, decide_eq_true_iff]
  exact UInt8.isUTF8FirstByte_getElem_utf8EncodeChar

/-- The boundaries of a text are the sizes of its fronts. -/
theorem isBoundary_bytes_iff :
    isBoundary (bytes s) n = true ↔ ∃ u v, s = u ++ v ∧ utf8Size u = n := by
  induction s generalizing n with
  | nil =>
    have hnil : isBoundary (bytes []) n = true ↔ n = 0 := by simp [isBoundary]
    rw [hnil]
    constructor
    · rintro rfl
      exact ⟨[], [], rfl, rfl⟩
    · rintro ⟨u, v, huv, rfl⟩
      rw [(List.append_eq_nil_iff.1 huv.symm).1]
      rfl
  | cons c s ih =>
    constructor
    · intro h
      by_cases hn : n < c.utf8Size
      · exact ⟨[], c :: s, rfl, ((isBoundary_bytes_cons_of_lt hn).1 h).symm⟩
      · obtain ⟨m, rfl⟩ := Nat.exists_eq_add_of_le (Nat.le_of_not_lt hn)
        rw [isBoundary_bytes_cons_add] at h
        obtain ⟨u, v, rfl, rfl⟩ := ih.1 h
        exact ⟨c :: u, v, rfl, rfl⟩
    · rintro ⟨u, v, huv, rfl⟩
      cases u with
      | nil => exact (isBoundary_bytes_cons_of_lt c.utf8Size_pos).2 rfl
      | cons d u =>
        obtain ⟨rfl, rfl⟩ := List.cons.inj huv
        rw [utf8Size, isBoundary_bytes_cons_add]
        exact ih.2 ⟨u, v, rfl, rfl⟩

/-! ## Slices -/

/-- The bytes between two boundaries. -/
def slice? (text : List UInt8) (start stop : Nat) : Option (List UInt8) :=
  if start ≤ stop ∧ isBoundary text start = true ∧ isBoundary text stop = true then
    some ((text.take stop).drop start)
  else none

theorem slice?_eq_some_iff {text : List UInt8} :
    slice? text m n = some w ↔ m ≤ n ∧ isBoundary text m = true ∧ isBoundary text n = true ∧
      w = (text.take n).drop m := by
  rw [slice?, Option.ite_none_right_eq_some, Option.some.injEq, and_assoc, and_assoc,
    eq_comm (a := w)]

/-- What can be cut out of a text is a stretch of its characters. -/
theorem slice?_bytes_eq_some_iff :
    slice? (bytes s) m n = some w ↔
      ∃ u t v, s = u ++ (t ++ v) ∧ utf8Size u = m ∧ utf8Size (u ++ t) = n ∧ bytes t = w := by
  rw [slice?_eq_some_iff]
  constructor
  · rintro ⟨hle, hm, hn, rfl⟩
    obtain ⟨u, x, rfl, rfl⟩ := isBoundary_bytes_iff.1 hm
    obtain ⟨y, v, hy, rfl⟩ := isBoundary_bytes_iff.1 hn
    -- of two fronts of one text the one with fewer bytes comes first
    have hu : bytes u <+: bytes (u ++ x) := bytes_prefix_iff.2 (List.prefix_append u x)
    have hfront : bytes y <+: bytes (u ++ x) := hy ▸ bytes_prefix_iff.2 (List.prefix_append y v)
    have hfirst := List.prefix_of_prefix_length_le hu hfront (by simpa using hle)
    obtain ⟨t, rfl⟩ := bytes_prefix_iff.1 hfirst
    refine ⟨u, t, v, by rw [hy, List.append_assoc], rfl, rfl, ?_⟩
    rw [hy, bytes_append, List.take_left' (length_bytes _), bytes_append,
      List.drop_left' (length_bytes u)]
  · rintro ⟨u, t, v, rfl, rfl, rfl, rfl⟩
    refine ⟨by simp, ?_, ?_, ?_⟩
    · exact isBoundary_bytes_iff.2 ⟨u, t ++ v, rfl, rfl⟩
    · exact isBoundary_bytes_iff.2 ⟨u ++ t, v, (List.append_assoc u t v).symm, rfl⟩
    · rw [← List.append_assoc, bytes_append, List.take_left' (length_bytes _), bytes_append,
        List.drop_left' (length_bytes u)]

/-- The slice of a text that holds some of its characters. -/
theorem slice?_of_eq {u t v : List Char} (h : s = u ++ (t ++ v)) (hm : utf8Size u = m)
    (hn : m + utf8Size t = n) : slice? (bytes s) m n = some (bytes t) :=
  slice?_bytes_eq_some_iff.2 ⟨u, t, v, h, hm, by rw [utf8Size_append, hm, hn], rfl⟩

end Text

/-! ## Edits by slices -/

namespace Edit

open Text

variable {text : List UInt8} {cursor : Nat} {es : List Edit}

/-- What the edits make of a text from the cursor on, put together from slices of it. -/
def splice? (text : List UInt8) (cursor : Nat) : List Edit → Option (List UInt8)
  | [] => slice? text cursor text.length
  | e :: es => do
    let before ← slice? text cursor e.start
    let after ← splice? text e.stop es
    return before ++ (e.bytes ++ after)

/-- No slice fails between boundaries. -/
theorem Fit.splice?_eq (h : Fit text.length cursor es) (hcursor : isBoundary text cursor = true)
    (hedits : ∀ e ∈ es, isBoundary text e.start = true ∧ isBoundary text e.stop = true) :
    splice? text cursor es = some (splice text cursor es) := by
  induction es generalizing cursor with
  | nil =>
    refine slice?_eq_some_iff.2 ⟨h, hcursor, isBoundary_length text, ?_⟩
    rw [List.take_length, splice]
  | cons e es ih =>
    obtain ⟨he, hes⟩ := List.forall_mem_cons.1 hedits
    have hbefore := slice?_eq_some_iff.2 ⟨h.1, hcursor, he.1, rfl⟩
    rw [splice?, hbefore, ih h.2.2 he.2 hes]
    rfl

end Edit

end ImportPaths
