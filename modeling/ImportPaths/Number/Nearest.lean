/-!
# Rounding to the nearest

Quotients rounded to a whole number and to a binary fraction of 53 digits, and whole numbers rounded
to 53 digits; a tie goes to the even neighbour in all of them.
-/

namespace ImportPaths.Number

/-- `num / den` to the nearest whole number, a half to the even neighbour. -/
def roundDiv (num den : Nat) : Nat :=
  let low := num / den
  let twice := 2 * (num % den)
  if twice < den then low
  else if den < twice then low + 1
  else low + low % 2

/-- A power of two. -/
def pow2 (n : Nat) : Nat := Nat.pow 2 n

/-- The number `digits / 2 ^ scale`. -/
structure BinaryFraction where
  digits : Nat
  scale : Nat
deriving DecidableEq, Inhabited

/-- How many binary digits a number keeps. -/
def precision : Nat := 53

/-- `num / den` to the nearest number of 53 binary digits, for quotients below `2 ^ 52`.  The scale
is first estimated from the sizes of the two numbers, and is one too small where the quotient of
their leading digits is below one. -/
def nearest (num den : Nat) : BinaryFraction :=
  let estimate := precision - 1 + Nat.log2 den - Nat.log2 num
  let scale := if num * pow2 estimate < den * pow2 (precision - 1) then estimate + 1 else estimate
  ⟨roundDiv (num * pow2 scale) den, scale⟩

/-- A whole number to the nearest one of 53 binary digits. -/
def nearestWhole (n : Nat) : Nat :=
  let unit := pow2 (Nat.log2 n - (precision - 1))
  roundDiv n unit * unit

/-- A sum with a whole number, rounded again. -/
def BinaryFraction.addNat (x : BinaryFraction) (n : Nat) : BinaryFraction :=
  nearest (n * pow2 x.scale + x.digits) (pow2 x.scale)

/-- The number in hundredths, to the nearest. -/
def BinaryFraction.hundredths (x : BinaryFraction) : Nat := roundDiv (x.digits * 100) (pow2 x.scale)

end ImportPaths.Number
