/-!
# Text as a list of characters

Everything the library reads and writes is looked at as a `List Char`.  This file holds the few
general operations on such lists that the rest is written with: measuring in UTF-8, comparing,
looking for a stretch inside a text, and cutting at both ends.
-/

namespace ImportPaths

/-- The text that some bytes stand for. -/
def decode? (bytes : ByteArray) : Option (List Char) := (String.fromUTF8? bytes).map String.toList

end ImportPaths

namespace ImportPaths.Text

/-! ## Measuring -/

/-- The number of bytes a text takes in UTF-8. -/
def utf8Size : List Char → Nat
  | [] => 0
  | c :: s => c.utf8Size + utf8Size s

@[simp] theorem utf8Size_append (s t : List Char) :
    utf8Size (s ++ t) = utf8Size s + utf8Size t := by
  induction s with
  | nil => rw [List.nil_append, utf8Size, Nat.zero_add]
  | cons c s ih => rw [List.cons_append, utf8Size, utf8Size, ih, Nat.add_assoc]

/-- The bytes of a text in UTF-8. -/
def bytes (s : List Char) : List UInt8 := s.flatMap String.utf8EncodeChar

/-- The longest front of a text that takes at most `n` bytes. -/
def takeBytes : Nat → List Char → List Char
  | _, [] => []
  | n, c :: s => if c.utf8Size ≤ n then c :: takeBytes (n - c.utf8Size) s else []

/-- A text without the characters of its first `n` bytes. -/
def dropBytes : Nat → List Char → List Char
  | 0, s => s
  | _, [] => []
  | n, c :: s => dropBytes (n - c.utf8Size) s

/-- The stretch of a text from its byte `m` to its byte `n`. -/
def between (m n : Nat) (s : List Char) : List Char := takeBytes (n - m) (dropBytes m s)

/-! ## Comparing -/

/-- The order of texts: character by character, and the shorter first.  It is also the order of
their bytes. -/
def le : List Char → List Char → Bool
  | [], _ => true
  | _ :: _, [] => false
  | c :: s, d :: t => decide (c.toNat < d.toNat) || (c == d && le s t)

/-- Whether the number of a character lies in one of some ranges, both ends included. -/
def inRanges (ranges : List (Nat × Nat)) (c : Char) : Bool :=
  ranges.any fun r => decide (r.1 ≤ c.toNat) && decide (c.toNat ≤ r.2)

/-! ## Searching -/

/-- What `isPrefixOf?` leaves over, put after what it took away, is the text again. -/
theorem append_eq_of_isPrefixOf? {lead s rest : List Char} (h : lead.isPrefixOf? s = some rest) :
    lead ++ rest = s := by
  induction lead generalizing s with
  | nil => exact (Option.some.inj h).symm
  | cons c lead ih =>
    cases s with
    | nil => cases h
    | cons d s =>
      change (if c == d then lead.isPrefixOf? s else none) = some rest at h
      split at h
      · rename_i hcd
        rw [List.cons_append, ih h, eq_of_beq hcd]
      · cases h

/-- Whether `needle` stands somewhere in `s`, as one unbroken stretch. -/
def occursIn (needle : List Char) : List Char → Bool
  | [] => needle.isEmpty
  | c :: s => needle.isPrefixOf (c :: s) || occursIn needle s

/-! ## Cutting -/

/-- `s` without the longest run at its end whose characters all satisfy `p`. -/
def dropEndWhile (p : Char → Bool) (s : List Char) : List Char :=
  (s.reverse.dropWhile p).reverse

/-- What stands before and after the last `c` of `s`, when there is one. -/
def splitLast? (c : Char) (s : List Char) : Option (List Char × List Char) :=
  match s.reverse.dropWhile (· != c) with
  | [] => none
  | _ :: before => some (before.reverse, (s.reverse.takeWhile (· != c)).reverse)

end ImportPaths.Text
