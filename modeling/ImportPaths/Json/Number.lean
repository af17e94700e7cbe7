import ImportPaths.Number.Nearest

/-!
# JSON numbers

The grammar of numbers, and the bound on their size.  A number is held as a significand of 64 bits
and a power of ten; digits that no longer fit into the significand only count for the power.  Both
are rounded to 53 binary digits and multiplied, and the product must be nearer to a finite number of
64 bits than to `2 ^ 1024`.
-/

namespace ImportPaths.Json

/-- A number taken apart into its digits. -/
structure NumberParts where
  negative : Bool
  whole : List Char
  fraction : List Char
  exponentNegative : Bool
  exponent : List Char

/-- The value of a run of decimal digits. -/
def digitsValue (ds : List Char) : Nat := ds.foldl (fun n c => n * 10 + (c.toNat - '0'.toNat)) 0

namespace NumberParts

/-- The greatest significand. -/
def maxSignificand : Nat := Number.pow2 64 - 1

/-- A significand with more digits after it, as long as they fit, and how many were left out. -/
def takeDigits (significand : Nat) : List Char → Nat × Nat
  | [] => (significand, 0)
  | c :: ds =>
    let next := significand * 10 + (c.toNat - '0'.toNat)
    if next ≤ maxSignificand then takeDigits next ds else (significand, ds.length + 1)

/-- The number as a significand and the power of ten that it is multiplied with.  A digit in front
of the point that does not fit still counts for the power, one after the point does not. -/
def scaled (p : NumberParts) : Nat × Int :=
  let (whole, dropped) := takeDigits 0 p.whole
  let (significand, lost) := takeDigits whole p.fraction
  let exponent : Int := digitsValue p.exponent
  (significand, (dropped : Int) - (p.fraction.length - lost : Nat) +
    if p.exponentNegative then -exponent else exponent)

/-- The least number that is no longer nearer to a finite number than to `2 ^ 1024`. -/
def overflow : Nat := Number.pow2 1024 - Number.pow2 970

/-- The greatest power of ten below `2 ^ 1024`. -/
def maxPower : Nat := 308

/-- Whether the number is within bounds. -/
def inRange (p : NumberParts) : Bool :=
  match p.scaled with
  | (0, _) | (_, .negSucc _) => true
  | (significand, .ofNat power) =>
    decide (power ≤ maxPower) &&
      decide (Number.nearestWhole significand * Number.nearestWhole (Nat.pow 10 power) < overflow)

end NumberParts

/-- A run of digits that must not be empty, and what follows. -/
def readDigits (s : List Char) : Option (List Char × List Char) :=
  match s.takeWhile Char.isDigit with
  | [] => none
  | ds => some (ds, s.dropWhile Char.isDigit)

/-- The digits in front of the point: a zero stands alone. -/
def readWhole (s : List Char) : Option (List Char × List Char) :=
  match readDigits s with
  | some ('0' :: _ :: _, _) | none => none
  | some r => some r

/-- The digits after the point, if there is one. -/
def readFraction : List Char → Option (List Char × List Char)
  | '.' :: s => readDigits s
  | s => some ([], s)

/-- The exponent, if there is one, with its sign. -/
def readExponent : List Char → Option (Bool × List Char × List Char)
  | 'e' :: s | 'E' :: s =>
    match s with
    | '-' :: s => (readDigits s).map fun (ds, s) => (true, ds, s)
    | '+' :: s => (readDigits s).map fun (ds, s) => (false, ds, s)
    | s => (readDigits s).map fun (ds, s) => (false, ds, s)
  | s => some (false, [], s)

/-- A number at the front of a text, and what follows. -/
def readNumber (s : List Char) : Option (NumberParts × List Char) :=
  let (negative, s) := match s with
    | '-' :: s => (true, s)
    | s => (false, s)
  match readWhole s with
  | none => none
  | some (whole, s) =>
    match readFraction s with
    | none => none
    | some (fraction, s) =>
      match readExponent s with
      | none => none
      | some (exponentNegative, exponent, s) =>
        some (⟨negative, whole, fraction, exponentNegative, exponent⟩, s)

end ImportPaths.Json
