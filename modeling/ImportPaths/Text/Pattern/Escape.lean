import ImportPaths.Text.Blank
import ImportPaths.Text.Hex

/-!
# Escapes in patterns

What a backslash and the signs after it stand for.  Back references and classes by the properties
of their characters are not known.  Where blanks are left out, so they are between the digits of a
number.
-/

namespace ImportPaths.Text.Pattern

/-! ## Blanks and comments -/

/-- A text without the blanks and comments at its front; a comment goes from `#` to the end of the
line. -/
def skipBlanks (inComment : Bool) : List Char → List Char
  | [] => []
  | c :: s =>
    if inComment then skipBlanks (c != '\n') s
    else if isBlank c then skipBlanks false s
    else if c == '#' then skipBlanks true s
    else c :: s

/-- Leaves out blanks and comments where they do not count. -/
def skip (spaced : Bool) (s : List Char) : List Char := if spaced then skipBlanks false s else s

/-! ## Escapes -/

/-- What an escape stands for. -/
inductive Escape where
  /-- A character, which may be given by its number as a byte. -/
  | char (c : Char) (asByte : Bool)
  /-- The start or the end of the text. -/
  | edge
  /-- The start or the end of a word, or no such place. -/
  | boundary
  /-- The digits, the blanks or the characters of words, or all others. -/
  | shorthand (others : Bool)
deriving DecidableEq, Inhabited

namespace Escape

/-- The characters that have letters of their own. -/
def controls : List (Char × Char) :=
  [('a', '\x07'), ('f', '\x0c'), ('n', '\n'), ('r', '\r'), ('t', '\t'), ('v', '\x0b')]

/-- An escape by one sign.  Signs of ASCII other than letters and digits stand for themselves. -/
def ofSign? (c : Char) : Option Escape :=
  if "dsw".toList.contains c then some (.shorthand false)
  else if "DSW".toList.contains c then some (.shorthand true)
  else if "Az".toList.contains c then some .edge
  else if "bB<>".toList.contains c then some .boundary
  else if c.toNat < 0x80 && !c.isAlphanum then some (.char c false)
  else (controls.lookup c).map (.char · false)

/-- So many digits of base 16, and what follows. -/
def readHex (spaced : Bool) : Nat → List Char → Option (List Char × List Char)
  | 0, s => some ([], s)
  | n + 1, s =>
    match skip spaced s with
    | [] => none
    | c :: s => (readHex spaced n s).map fun (ds, s) => (c :: ds, s)

/-- A character by its number of so many digits, and what follows. -/
def readNumber (spaced asByte : Bool) (size : Nat) (s : List Char) : Option (Escape × List Char) :=
  match readHex spaced size s with
  | some (ds, s) => (hexChar? ds).map fun c => (.char c asByte, s)
  | none => none

/-- An escape, of which the backslash is already read, and what follows. -/
def read? (spaced : Bool) : List Char → Option (Escape × List Char)
  | [] => none
  | 'x' :: s => readNumber spaced true 2 s
  | 'u' :: s => readNumber spaced false 4 s
  | 'U' :: s => readNumber spaced false 8 s
  | c :: s => (ofSign? c).map (·, s)

end Escape

end ImportPaths.Text.Pattern
