import ImportPaths.Text.Hex
import ImportPaths.Text.Unprintable

/-!
# Quoted texts in the log

A text is shown between double quotes, with escapes for quotes, backslashes and every character that
would not be seen.  A single quote is none of these.
-/

namespace ImportPaths.Text

/-- A character by its number. -/
def byNumber (c : Char) : List Char := "\\u\x7b".toList ++ hex c.toNat ++ ['\x7d']

/-- A character between quotes. -/
def shown (c : Char) : List Char :=
  if c = '\x00' then ['\\', '0']
  else if c = '\t' then ['\\', 't']
  else if c = '\r' then ['\\', 'r']
  else if c = '\n' then ['\\', 'n']
  else if c = '\\' ∨ c = '"' then ['\\', c]
  else if c.toNat < 0x20 ∨ isUnprintable c then byNumber c
  else [c]

/-- A text between quotes. -/
def quoted (s : List Char) : String := String.ofList ('"' :: (s.flatMap shown ++ ['"']))

end ImportPaths.Text
