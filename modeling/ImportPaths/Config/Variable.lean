import ImportPaths.Config.Datum
import ImportPaths.Json.Number
import ImportPaths.Number.Literal
import ImportPaths.Text.Blank
import ImportPaths.Text.Hex

/-!
# Values of environment variables

The text of a variable is read as a value: `true` and `false`, a list in brackets, a table in
braces, a text in double quotes with escapes, one character in single quotes, or else a bare word,
which is a number where it looks like one.  A text that is no such value through to its end stands
for itself, blanks and all.
-/

namespace ImportPaths.Variable

open Json (digitsValue)
open Number (isDigits dropSign isUnsigned)
open Text (hexChar?)

/-! ## Bare words -/

/-- A character that ends a bare word. -/
def isSeparator (c : Char) : Bool :=
  c == ',' || c == '{' || c == '}' || c == '[' || c == ']'

/-- A whole number of 64 bits, with or without a sign. -/
def isWhole (s : List Char) : Bool :=
  match s with
  | '-' :: ds => isDigits ds && decide (digitsValue ds ≤ Number.pow2 63)
  | '+' :: ds => isDigits ds && decide (digitsValue ds < Number.pow2 64)
  | ds => isDigits ds && decide (digitsValue ds < Number.pow2 64)

/-- A number with a point in it. -/
def isDecimal (s : List Char) : Bool := s.contains '.' && isUnsigned (dropSign s)

/-- What a bare word stands for. -/
def bare (word : List Char) : Datum :=
  if isDecimal word || isWhole word then .other else .text word

/-! ## Texts in quotes -/

/-- The text up to the closing quote, escapes and all, and what follows the quote. -/
def quotedSpan : List Char → Option (List Char × List Char)
  | [] => none
  | '"' :: s => some ([], s)
  | '\\' :: c :: s => (quotedSpan s).map fun (t, rest) => ('\\' :: c :: t, rest)
  | c :: s => (quotedSpan s).map fun (t, rest) => (c :: t, rest)

/-- A character that may stand in quotes: a tab, or no control character. -/
def isQuotable (c : Char) : Bool := c == '\t' || (decide (0x20 ≤ c.toNat) && c != '\x7f')

/-- A text with its escapes resolved. -/
def unescape : List Char → Option (List Char)
  | [] => some []
  | '\\' :: 'u' :: a :: b :: c :: d :: s =>
    match hexChar? [a, b, c, d] with
    | some x => (unescape s).map (x :: ·)
    | none => none
  | '\\' :: 'U' :: a :: b :: c :: d :: e :: f :: g :: h :: s =>
    match hexChar? [a, b, c, d, e, f, g, h] with
    | some x => (unescape s).map (x :: ·)
    | none => none
  | '\\' :: '"' :: s => (unescape s).map ('"' :: ·)
  | '\\' :: '\\' :: s => (unescape s).map ('\\' :: ·)
  | '\\' :: 'b' :: s => (unescape s).map ('\x08' :: ·)
  | '\\' :: 'f' :: s => (unescape s).map ('\x0c' :: ·)
  | '\\' :: 'n' :: s => (unescape s).map ('\n' :: ·)
  | '\\' :: 'r' :: s => (unescape s).map ('\r' :: ·)
  | '\\' :: 't' :: s => (unescape s).map ('\t' :: ·)
  | c :: s => if c ≠ '\\' ∧ isQuotable c then (unescape s).map (c :: ·) else none

/-- What the text in quotes says.  Where there are escapes, what stands before the first one keeps
only as many bytes as it has characters. -/
def content (t : List Char) : Option (List Char) :=
  let escaped := t.dropWhile (· != '\\')
  match unescape (t.takeWhile (· != '\\')), unescape escaped with
  | some plain, some s =>
    some ((if escaped.isEmpty then plain else Text.takeBytes plain.length plain) ++ s)
  | _, _ => none

/-- A text in double quotes, of which the first is already read. -/
def quoted (s : List Char) : Option (List Char × List Char) :=
  match quotedSpan s with
  | some (t, rest) => (content t).map fun t => (t, rest)
  | none => none

/-! ## Values -/

def skip (s : List Char) : List Char := s.dropWhile Text.isAsciiBlank

/-- Items with commas between them, up to the sign `close`; a comma may stand before it. -/
def items {α : Type} (item : List Char → Option (α × List Char)) (close : Char) :
    Nat → List Char → Option (List α × List Char)
  | 0, _ => none
  | bound + 1, s =>
    if s.head? = some close then some ([], s.tail)
    else
      match item s with
      | none => none
      | some (a, s) =>
        match s with
        | [] => none
        | c :: s =>
          if c = ',' then (items item close bound s).map fun (as, s) => (a :: as, s)
          else if c = close then some ([a], s)
          else none

/-- A character of a name in a table. -/
def isNameChar (c : Char) : Bool := c.isAlphanum || c == '_' || c == '-'

/-- The name of an entry of a table, and what follows. -/
def entryName : List Char → Option (List Char × List Char)
  | '"' :: s => quoted s
  | s =>
    match s.takeWhile isNameChar with
    | [] => none
    | name => some (name, s.dropWhile isNameChar)

/-- An entry of a table: a name, `=` and a value. -/
def entry (value : List Char → Option (Datum × List Char)) (s : List Char) :
    Option (Datum × List Char) :=
  match entryName (skip s) with
  | none => none
  | some (_, s) =>
    match skip s with
    | '=' :: s => value s
    | _ => none

/-- A value at the front of a text, and what follows it and the blanks after it. -/
def value : Nat → List Char → Option (Datum × List Char)
  | 0, _ => none
  | bound + 1, s =>
    let read : Option (Datum × List Char) :=
      match skip s with
      | 't' :: 'r' :: 'u' :: 'e' :: s => some (.other, s)
      | 'f' :: 'a' :: 'l' :: 's' :: 'e' :: s => some (.other, s)
      | '{' :: s => (items (entry (value bound)) '}' (s.length + 1) s).map fun (_, s) => (.other, s)
      | '[' :: s => (items (value bound) ']' (s.length + 1) s).map fun (vs, s) => (.list vs, s)
      | '"' :: s => (quoted s).map fun (t, s) => (.text t, s)
      | '\'' :: s =>
        match s with
        | c :: '\'' :: s => some (.text [c], s)
        | _ => none
      | s => some (bare (Text.trim (s.takeWhile (!isSeparator ·))), s.dropWhile (!isSeparator ·))
    read.map fun (v, s) => (v, skip s)

/-- What the text of a variable says. -/
def read (text : List Char) : Datum :=
  match value (text.length + 1) text with
  | some (v, []) => v
  | _ => .text text

end ImportPaths.Variable
