import ImportPaths.Text.Basic

/-!
# Blanks

Two notions of blank are in use.  A source text is only ever looked at through the five ASCII
blanks; what a user types as a token is trimmed of, and checked for, every character with the
Unicode property `White_Space`.
-/

namespace ImportPaths.Text

/-- The ASCII blanks: space, tab, line feed, form feed and carriage return.  A vertical tab is none
of them. -/
def isAsciiBlank (c : Char) : Bool :=
  c == ' ' || c == '\t' || c == '\n' || c == '\x0c' || c == '\r'

/-- The ranges of the property `White_Space`, both ends included. -/
def blankRanges : List (Nat × Nat) :=
  [(0x09, 0x0D), (0x20, 0x20), (0x85, 0x85), (0xA0, 0xA0), (0x1680, 0x1680), (0x2000, 0x200A),
   (0x2028, 0x2029), (0x202F, 0x202F), (0x205F, 0x205F), (0x3000, 0x3000)]

/-- Whether `c` has the property `White_Space`. -/
def isBlank (c : Char) : Bool := inRanges blankRanges c

/-- `s` without the blanks at its two ends. -/
def trim (s : List Char) : List Char := dropEndWhile isBlank (s.dropWhile isBlank)

end ImportPaths.Text
