/-!
# Numbers in base 16
-/

namespace ImportPaths.Text

/-- A number in base 16, without zeros in front. -/
def hex (n : Nat) : List Char := Nat.toDigits 16 n

/-- A digit of base 16, in lower case. -/
def hexDigit (n : Nat) : Char := if n < 10 then Char.ofNat (48 + n) else Char.ofNat (87 + n)

/-- The value of a digit of base 16. -/
def hexValue? (c : Char) : Option Nat :=
  if '0' ≤ c ∧ c ≤ '9' then some (c.toNat - '0'.toNat)
  else if 'a' ≤ c ∧ c ≤ 'f' then some (c.toNat - 'a'.toNat + 10)
  else if 'A' ≤ c ∧ c ≤ 'F' then some (c.toNat - 'A'.toNat + 10)
  else none

/-- The character with a number that is written in base 16. -/
def hexChar? (digits : List Char) : Option Char :=
  match digits.mapM hexValue? with
  | some ds =>
    let n := ds.foldl (fun n d => n * 16 + d) 0
    if n.isValidChar then some (Char.ofNat n) else none
  | none => none

end ImportPaths.Text
