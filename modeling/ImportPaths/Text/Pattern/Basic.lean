import ImportPaths.Text.Pattern.CharSet

/-!
# Patterns

Regular expressions as trees, and which of them a finite automaton can be made for.  Nothing is ever
matched here: a filter that asks for the value of a field is refused where no automaton can be made
for the value, and that is all that is seen of it.

* `Pattern.depth`: how deep the parts of a pattern stand in each other.
* `Pattern.modeAfter?`: whether an automaton can tell what the pattern asks for, flag by flag.
* `Pattern.isMatchable`: both of these within bounds, and no name given twice.
-/

namespace ImportPaths.Text

open Pattern (CharSet Flags Mode)

/-- A pattern as it is written. -/
inductive Pattern where
  | empty
  /-- A change of flags for what follows. -/
  | flags (f : Flags)
  /-- A character, which may be given by its number as a byte. -/
  | char (c : Char) (asByte : Bool)
  /-- Any character. -/
  | dot
  /-- The start or the end of the text or of a line. -/
  | edge
  /-- The start or the end of a word, or no such place. -/
  | boundary
  /-- One character of a set. -/
  | set (s : CharSet)
  /-- A pattern any number of times. -/
  | repeated (p : Pattern)
  /-- A group with flags of its own, and perhaps a name. -/
  | group (f : Flags) (name : Option (List Char)) (p : Pattern)
  /-- One pattern after the other. -/
  | next (p q : Pattern)
  /-- One of two patterns. -/
  | choice (p q : Pattern)
deriving DecidableEq, Inhabited

namespace Pattern

/-! ## Bounds -/

def isNext : Pattern → Bool
  | .next _ _ => true
  | _ => false

def isChoice : Pattern → Bool
  | .choice _ _ => true
  | _ => false

/-- How deep the parts of a pattern stand in each other.  A row of patterns is one level, however
many stand in it, and so is a choice. -/
def depth : Pattern → Nat
  | .set s => s.depth
  | .repeated p => p.depth + 1
  | .group _ _ p => p.depth + 1
  | .next p q => max (if p.isNext then p.depth else p.depth + 1) (q.depth + 1)
  | .choice p q => max (if p.isChoice then p.depth else p.depth + 1) (q.depth + 1)
  | _ => 0

/-- The greatest depth. -/
def maxDepth : Nat := 250

/-- The names of the groups. -/
def names : Pattern → List (List Char)
  | .repeated p => p.names
  | .group _ name p => name.toList ++ p.names
  | .next p q => p.names ++ q.names
  | .choice p q => p.names ++ q.names
  | _ => []

/-! ## Automata -/

/-- Whether an automaton can tell a character.  Both cases of it are known only for ASCII, and a
byte above ASCII is no character. -/
def knowsChar (m : Mode) (c : Char) (asByte : Bool) : Bool :=
  if m.unicode then !m.anyCase else !asByte || decide (c.toNat < 0x80)

/-- The flags after a pattern, where an automaton can tell what it asks for.  It can tell the ends
of words only by the letters of ASCII, and any character only where characters are meant. -/
def modeAfter? : Pattern → Mode → Option Mode
  | .empty, m => some m
  | .flags f, m => some (m.change f)
  | .char c asByte, m => if knowsChar m c asByte then some m else none
  | .dot, m => if m.unicode then some m else none
  | .edge, m => some m
  | .boundary, m => if m.unicode then none else some m
  | .set s, m => if s.isKnown m then some m else none
  | .repeated p, m => p.modeAfter? m
  | .group f _ p, m => (p.modeAfter? (m.change f)).map fun _ => m
  | .next p q, m => (p.modeAfter? m).bind q.modeAfter?
  | .choice p q, m => (p.modeAfter? m).bind q.modeAfter?

/-- Whether an automaton can be made for a pattern. -/
def isMatchable (p : Pattern) : Bool :=
  decide (p.depth ≤ maxDepth) && decide p.names.Nodup && (p.modeAfter? {}).isSome

end Pattern

end ImportPaths.Text
