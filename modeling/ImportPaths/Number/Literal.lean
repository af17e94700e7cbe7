/-!
# Numbers as they are written

The grammar of decimal numbers with a sign, a point and a power of ten, all of which may be missing.
What is beyond the finite numbers is written in words.
-/

namespace ImportPaths.Number

/-- Digits only, and at least one. -/
def isDigits (s : List Char) : Bool := !s.isEmpty && s.all Char.isDigit

/-- A text without a sign in front. -/
def dropSign : List Char → List Char
  | '+' :: s | '-' :: s => s
  | s => s

/-- An exponent, or nothing. -/
def isExponent : List Char → Bool
  | [] => true
  | 'e' :: s | 'E' :: s => isDigits (dropSign s)
  | _ => false

/-- What stands after a point, or an empty text and everything. -/
def splitFraction : List Char → List Char × List Char
  | '.' :: s => (s.takeWhile Char.isDigit, s.dropWhile Char.isDigit)
  | s => ([], s)

/-- A number without a sign: digits, in front of the point or after it, and perhaps an exponent. -/
def isUnsigned (s : List Char) : Bool :=
  let (fraction, rest) := splitFraction (s.dropWhile Char.isDigit)
  !(s.takeWhile Char.isDigit ++ fraction).isEmpty && isExponent rest

/-- The words for what is no finite number, in lower case. -/
def nonFiniteWords : List String := ["inf", "infinity", "nan"]

/-- A number with or without a sign, finite or not; words may be in either case. -/
def isNumber (s : List Char) : Bool :=
  isUnsigned (dropSign s) ||
    nonFiniteWords.any fun word => word.toList == (dropSign s).map Char.toLower

end ImportPaths.Number
