import ImportPaths.Json.Number
import ImportPaths.Json.Quoted
import ImportPaths.Json.Value

/-!
# Reading JSON

A reader takes a value from the front of a text and hands back what follows.  Lists are read with
the length of the text as a bound on their items, and values nest at most `maxDepth` deep.
-/

namespace ImportPaths.Json

/-- The blanks that may stand between the parts of a text. -/
def isGap (c : Char) : Bool := c == ' ' || c == '\t' || c == '\n' || c == '\r'

def skipGap (s : List Char) : List Char := s.dropWhile isGap

/-- How deep arrays and objects may stand in one another. -/
def maxDepth : Nat := 127

/-- One item or more, with commas between them, up to the sign `close`. -/
def readItems {α : Type} (item : List Char → Option (α × List Char)) (close : Char) :
    Nat → List Char → Option (List α × List Char)
  | 0, _ => none
  | bound + 1, s =>
    match item s with
    | none => none
    | some (a, s) =>
      match skipGap s with
      | [] => none
      | c :: s =>
        if c = close then some ([a], s)
        else if c = ',' then (readItems item close bound s).map fun (as, s) => (a :: as, s)
        else none

/-- Any number of items, up to the sign `close`. -/
def readList {α : Type} (item : List Char → Option (α × List Char)) (close : Char)
    (s : List Char) : Option (List α × List Char) :=
  match skipGap s with
  | [] => none
  | c :: rest => if c = close then some ([], rest) else readItems item close s.length s

/-- A name in quotes, a colon and a value. -/
def readMember (value : List Char → Option (Value × List Char)) (s : List Char) :
    Option ((List Char × Value) × List Char) :=
  match skipGap s with
  | '"' :: s =>
    match unquote s with
    | none => none
    | some (name, s) =>
      match skipGap s with
      | ':' :: s => (value s).map fun (v, s) => ((name, v), s)
      | _ => none
  | _ => none

/-- A value at the front of a text, with at most `depth` arrays and objects in one another. -/
def readValue (depth : Nat) (s : List Char) : Option (Value × List Char) :=
  match skipGap s with
  | 'n' :: 'u' :: 'l' :: 'l' :: s => some (.null, s)
  | 't' :: 'r' :: 'u' :: 'e' :: s => some (.bool true, s)
  | 'f' :: 'a' :: 'l' :: 's' :: 'e' :: s => some (.bool false, s)
  | '"' :: s => (unquote s).map fun (t, s) => (.string t, s)
  | '[' :: s =>
    match depth with
    | 0 => none
    | depth + 1 => (readList (readValue depth) ']' s).map fun (vs, s) => (.array vs, s)
  | '{' :: s =>
    match depth with
    | 0 => none
    | depth + 1 =>
      (readList (readMember (readValue depth)) '}' s).map fun (ms, s) => (.object ms, s)
  | s =>
    match readNumber s with
    | some (parts, rest) =>
      if parts.inRange then some (.number (s.take (s.length - rest.length)), rest) else none
    | none => none

/-- The value that a whole text stands for. -/
def Value.read? (s : List Char) : Option Value :=
  match readValue maxDepth s with
  | some (v, rest) => if (skipGap rest).isEmpty then some v else none
  | none => none

end ImportPaths.Json
