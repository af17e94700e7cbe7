import ImportPaths.Text.Pattern.Escape
import ImportPaths.Text.Pattern.Mode

/-!
# Sets of characters in patterns

A set stands in brackets: characters, ranges of them, sets by name and sets in brackets again, with
signs between them that take the common or the other characters of two sets.
-/

namespace ImportPaths.Text.Pattern

/-- A set of characters as it is written. -/
inductive CharSet where
  /-- No character: nothing stands at one side of a sign. -/
  | nothing
  /-- The characters from one to another; a single character is the range from it to itself. -/
  | range (first last : Char)
  /-- The digits, the blanks or the characters of words, or all others. -/
  | shorthand (others : Bool)
  /-- A set of ASCII characters by its name, or all others. -/
  | named (others : Bool)
  /-- A set in brackets, or all other characters. -/
  | bracket (others : Bool) (s : CharSet)
  /-- The characters of two sets that stand one after the other. -/
  | join (s t : CharSet)
  /-- Two sets with a sign between them. -/
  | combine (s t : CharSet)
deriving DecidableEq, Inhabited

namespace CharSet

def isJoin : CharSet → Bool
  | .join _ _ => true
  | _ => false

/-- How deep sets stand in each other.  A row of sets is one level, however many it joins. -/
def depth : CharSet → Nat
  | .bracket _ s => s.depth + 1
  | .join s t => max (if s.isJoin then s.depth else s.depth + 1) (t.depth + 1)
  | .combine s t => max s.depth t.depth + 1
  | _ => 0

/-- Whether an automaton can tell the characters of a set.  Both cases of a letter, and which
characters are digits, blanks or letters, are known only for ASCII; and where bytes are meant, a set
holds ASCII only. -/
def isKnown (m : Mode) : CharSet → Bool
  | .nothing => true
  | .range a b =>
    if m.unicode then !m.anyCase else decide (a.toNat < 0x80) && decide (b.toNat < 0x80)
  | .shorthand others => !m.unicode && !others
  | .named others => if m.unicode then !m.anyCase else !others
  | .bracket others s => (m.unicode || !others) && s.isKnown m
  | .join s t => s.isKnown m && t.isKnown m
  | .combine s t => s.isKnown m && t.isKnown m

/-! ## Reading -/

/-- The names of sets of ASCII characters. -/
def names : List String :=
  ["alnum", "alpha", "ascii", "blank", "cntrl", "digit", "graph", "lower", "print", "punct",
    "space", "upper", "word", "xdigit"]

/-- A sign that asks for all other characters, and what follows. -/
def readOthers : List Char → Bool × List Char
  | '^' :: s => (true, s)
  | s => (false, s)

/-- A set by its name between colons, of which the opening bracket is already read, and what
follows. -/
def readNamed? : List Char → Option (CharSet × List Char)
  | ':' :: s =>
    let (others, s) := readOthers s
    match s.dropWhile (· != ':') with
    | ':' :: ']' :: rest =>
      if names.any (·.toList == s.takeWhile (· != ':')) then some (.named others, rest) else none
    | _ => none
  | _ => none

/-- A member of a set as it is written, and what follows. -/
def readMember? (spaced : Bool) : List Char → Option (Escape × List Char)
  | [] => none
  | '\\' :: s => Escape.read? spaced s
  | c :: s => some (.char c false, s)

/-- The first sign that is not blank; the sign of a comment is passed over, and the comment is
not. -/
def peek (spaced : Bool) (s : List Char) : Option Char :=
  if spaced then
    match s.dropWhile isBlank with
    | '#' :: s => (s.dropWhile isBlank).head?
    | s => s.head?
  else s.head?

/-- A single member as a set. -/
def ofMember? : Escape → Option CharSet
  | .char c _ => some (.range c c)
  | .shorthand others => some (.shorthand others)
  | _ => none

/-- The members between two ends, in this order. -/
def between? : Escape → Escape → Option CharSet
  | .char a _, .char b _ => if b < a then none else some (.range a b)
  | _, _ => none

/-- A member or a range of members, and what follows.  A dash before a bracket or another dash makes
no range. -/
def readRange? (spaced : Bool) (s : List Char) : Option (CharSet × List Char) :=
  match readMember? spaced s with
  | none => none
  | some (a, s) =>
    match skip spaced s with
    | '-' :: s =>
      if peek spaced s = some ']' ∨ peek spaced s = some '-' then
        (ofMember? a).map (·, '-' :: s)
      else
        match readMember? spaced (skip spaced s) with
        | some (b, s) => (between? a b).map (·, s)
        | none => none
    | s => (ofMember? a).map (·, s)

/-- Sets that stand one after the other, as one; the last one comes first. -/
def ofItems : List CharSet → CharSet
  | [] => .nothing
  | [s] => s
  | t :: s => .join (ofItems s) t

/-- The whole of a set: what stands before the last sign, and the sets after it. -/
def close (left : Option CharSet) (items : List CharSet) : CharSet :=
  match left with
  | none => ofItems items
  | some left => .combine left (ofItems items)

/-- The signs that stand between two sets, each of them twice. -/
def isOperator (a b : Char) : Bool := a == b && (a == '&' || a == '-' || a == '~')

/-- A set up to its closing bracket, and what follows.  At the front dashes are members, and where
nothing else is, so is a closing bracket.  The bound is more than the length of the text. -/
def read (spaced : Bool) :
    Nat → Bool → Option CharSet → List CharSet → List Char → Option (CharSet × List Char)
  | 0, _, _, _, _ => none
  | bound + 1, front, left, items, s =>
    match skip spaced s with
    | [] => none
    | c :: s =>
      if front && (c == '-' || (c == ']' && items.isEmpty)) then
        read spaced bound (c == '-') left (.range c c :: items) s
      else if c == ']' then some (close left items, s)
      else if c == '[' then
        match readNamed? s with
        | some (item, s) => read spaced bound false left (item :: items) s
        | none =>
          let (others, s) := readOthers (skip spaced s)
          match read spaced bound true none [] s with
          | some (inner, s) => read spaced bound false left (.bracket others inner :: items) s
          | none => none
      else if s.head?.any (isOperator c) then
        read spaced bound false (some (close left items)) [] s.tail
      else
        match readRange? spaced (c :: s) with
        | some (item, s) => read spaced bound false left (item :: items) s
        | none => none

/-- A set in brackets, of which the first is already read, and what follows. -/
def readBracket? (spaced : Bool) (s : List Char) : Option (CharSet × List Char) :=
  let (others, s) := readOthers (skip spaced s)
  (read spaced (s.length + 1) true none [] s).map fun (inner, s) => (.bracket others inner, s)

end CharSet

end ImportPaths.Text.Pattern
