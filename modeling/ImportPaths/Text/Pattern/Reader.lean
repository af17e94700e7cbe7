import ImportPaths.Text.Numeral
import ImportPaths.Text.Pattern.Basic

/-!
# Reading patterns

The grammar of patterns.  Counted repetitions are left out of it: they need a brace to close them,
which cannot stand in a filter.
-/

namespace ImportPaths.Text.Pattern

/-! ## Groups -/

/-- What a round bracket opens. -/
inductive Opening where
  /-- Nothing: it only changes flags, and is closed already. -/
  | flags (f : Flags)
  /-- A group. -/
  | group (f : Flags) (name : Option (List Char))
deriving DecidableEq, Inhabited

/-- Whether a text can be the name of a group. -/
def isGroupName : List Char → Bool
  | [] => false
  | c :: s =>
    (c == '_' || isLetter c) && s.all fun c => "_.[]".toList.contains c || isLetterOrDigit c

/-- A group with a name, of which the sign in front of the name is already read, and what
follows. -/
def Opening.readName? (s : List Char) : Option (Opening × List Char) :=
  let name := s.takeWhile (· != '>')
  match s.dropWhile (· != '>') with
  | [] => none
  | _ :: rest => if isGroupName name then some (.group {} name, rest) else none

/-- A change of flags, alone or for a group, and what follows. -/
def Opening.readFlags? (s : List Char) : Option (Opening × List Char) :=
  let isInside (c : Char) : Bool := c != ':' && c != ')'
  let letters := s.takeWhile isInside
  match s.dropWhile isInside with
  | [] => none
  | c :: rest =>
    match Flags.ofLetters? letters with
    | none => none
    | some f =>
      if c == ':' then some (.group f none, rest)
      else if letters.isEmpty then none
      else some (.flags f, rest)

/-- What a round bracket opens, which is itself already read, and what follows. -/
def Opening.read? : List Char → Option (Opening × List Char)
  | '?' :: 'P' :: '<' :: s => readName? s
  | '?' :: '<' :: s => readName? s
  | '?' :: s => readFlags? s
  | s => some (.group {} none, s)

/-! ## Patterns -/

/-- An escape outside of brackets. -/
def ofEscape : Escape → Pattern
  | .char c asByte => .char c asByte
  | .edge => .edge
  | .boundary => .boundary
  | .shorthand others => .set (.shorthand others)

/-- A sign that is no part of a larger one. -/
def ofSign (c : Char) : Pattern :=
  if c == '.' then .dot else if c == '^' || c == '$' then .edge else .char c false

/-- Whether a pattern can be repeated. -/
def isRepeatable : Pattern → Bool
  | .empty | .flags _ => false
  | _ => true

/-- Patterns one after the other, as one; the last one comes first. -/
def ofItems : List Pattern → Pattern
  | [] => .empty
  | [p] => p
  | q :: p => .next (ofItems p) q

/-- The whole of a choice: what stands before the last bar, and the patterns after it. -/
def close (left : Option Pattern) (items : List Pattern) : Pattern :=
  match left with
  | none => ofItems items
  | some left => .choice left (ofItems items)

/-- What follows the sign that makes a repetition lazy, if there is one. -/
def dropLazy : List Char → List Char
  | '?' :: s => s
  | s => s

/-- A pattern up to the end of its group or of the text, and what follows.  `left` stands before the
last bar and `items` stand after it.  The bound is more than the length of the text. -/
def read : Nat → Bool → Option Pattern → List Pattern → List Char → Option (Pattern × List Char)
  | 0, _, _, _, _ => none
  | bound + 1, spaced, left, items, s =>
    match skip spaced s with
    | [] => some (close left items, [])
    | ')' :: s => some (close left items, ')' :: s)
    | '|' :: s => read bound spaced (some (close left items)) [] s
    | '\\' :: s =>
      match Escape.read? spaced s with
      | some (e, s) => read bound spaced left (ofEscape e :: items) s
      | none => none
    | '[' :: s =>
      match CharSet.readBracket? spaced s with
      | some (chars, s) => read bound spaced left (.set chars :: items) s
      | none => none
    | '(' :: s =>
      match Opening.read? (skip spaced s) with
      | some (.flags f, s) => read bound (f.apply 'x' spaced) left (.flags f :: items) s
      | some (.group f name, s) =>
        match read bound (f.apply 'x' spaced) none [] s with
        | some (p, ')' :: s) => read bound spaced left (.group f name p :: items) s
        | _ => none
      | none => none
    | c :: s =>
      if c == '{' then none
      else if "*+?".toList.contains c then
        match items with
        | [] => none
        | p :: items =>
          if p.isRepeatable then read bound spaced left (.repeated p :: items) (dropLazy s)
          else none
      else read bound spaced left (ofSign c :: items) s

/-- The pattern that a text says. -/
def ofText? (s : List Char) : Option Pattern :=
  match read (s.length + 1) false none [] s with
  | some (p, []) => some p
  | _ => none

end ImportPaths.Text.Pattern
