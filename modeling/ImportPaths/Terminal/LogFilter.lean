import ImportPaths.Terminal.Log
import ImportPaths.Number.Literal
import ImportPaths.Text.Blank
import ImportPaths.Text.LetterOrDigit
import ImportPaths.Text.Pattern.Reader

/-!
# Filters of the log

A filter lets some records of the log through.  It is written as rules with commas between them.  A
rule is a level, a target, or both with `=` between them; brackets after the target may name a span
of time and, in braces, a field that a record must have.  For each record the rule that says most
about it is heard.
-/

namespace ImportPaths.Terminal

/-- How much is let through of some records. -/
structure LogRule where
  /-- What the name of the part must start with. -/
  target : Option (List Char) := none
  /-- A field that a record must have. -/
  field : Option (List Char) := none
  /-- Whether the rule is about spans of time only, of which there are none. -/
  spansOnly : Bool := false
  level : LogLevel
deriving DecidableEq, Inhabited

namespace LogRule

/-- Whether the rule is about a record. -/
def concerns (rule : LogRule) (r : LogRecord) : Bool :=
  !rule.spansOnly && rule.target.all (·.isPrefixOf r.source.name) && rule.field.all r.hasField

/-- Whether `b` says at least as much as `a` about the records that both are about: a longer target
says more, then a field does, and of two fields the later one in the order of texts. -/
def yieldsTo (a b : LogRule) : Bool :=
  let size (rule : LogRule) : Nat := (rule.target.map (·.length + 1)).getD 0
  decide (size a < size b) ||
    (size a == size b &&
      match a.field, b.field with
      | none, _ => true
      | some _, none => false
      | some f, some g => Text.le f g)

/-! ## Reading -/

/-- The level at the end of a rule; where there is none, everything is let through. -/
def readLevel? (w : List Char) : Option LogLevel :=
  if w.isEmpty then some .trace else LogLevel.ofWord? w

/-- What a value that a field must have looks like: a number, or a pattern. -/
def isValue (s : List Char) : Bool :=
  Number.isNumber s || (Text.Pattern.ofText? s).any Text.Pattern.isMatchable

/-- A field as it is written: its name, and whether it is to have a value. -/
def readField? (s : List Char) : Option (List Char × Bool) :=
  if s.isEmpty then none
  else
    match s.dropWhile (· != '=') with
    | [] => some (s, false)
    | _ :: value =>
      if isValue (value.takeWhile (· != '=')) then some (s.takeWhile (· != '='), true) else none

/-- The level after the brackets of the rule `s`; they end before byte `start`. -/
def readEnd? (s : List Char) (start : Nat) : List Char → Option LogLevel
  | [] => some .trace
  | '=' :: _ => readLevel? (Text.dropBytes (start + 1) s)
  | _ => none

/-- The rule `s` from its brackets on, of which the first stands before byte `start`. -/
def readBrackets? (s : List Char) (target : Option (List Char)) (start : Nat)
    (inner : List Char) : Option LogRule :=
  let isName (c : Char) : Bool := c != ']' && c != '\x7b'
  let stop := start + Text.utf8Size (inner.takeWhile isName)
  match inner.dropWhile isName with
  | [] => none
  | ']' :: rest =>
    (readEnd? s (stop + 1) rest).map fun level => { target, spansOnly := true, level }
  | _ :: inner =>
    let size := Text.utf8Size (inner.takeWhile (· != '\x7d'))
    match inner.dropWhile (· != '\x7d') with
    | _ :: ']' :: rest =>
      match readField? (Text.takeBytes size (Text.dropBytes (stop + 1) s)),
        readEnd? s (stop + size + 3) rest with
      | some (field, hasValue), some level =>
        some { target, field, spansOnly := hasValue || stop != start, level }
      | _, _ => none
    | _ => none

/-- Whether a target may start with a character. -/
def startsTarget (c : Char) : Bool := c == '-' || c == ':' || c == '_' || Text.isLetterOrDigit c

/-- A rule as it is written.  Its parts are found in the text without the blanks around it, and are
then taken, by their distance from the start, from the text with them. -/
def read? (s : List Char) : Option LogRule :=
  let isHead (c : Char) : Bool := c != '=' && c != '['
  let trimmed := Text.trim s
  match trimmed with
  | [] => none
  | '[' :: inner => readBrackets? s none 1 inner
  | c :: _ =>
    if !startsTarget c then none
    else
      let stop := Text.utf8Size (trimmed.takeWhile isHead)
      match trimmed.dropWhile isHead with
      | [] =>
        match LogLevel.ofWord? s with
        | some level => some { level }
        | none => some { target := s, level := .trace }
      | '=' :: _ =>
        (readLevel? (Text.dropBytes (stop + 1) s)).map fun level =>
          { target := Text.takeBytes stop s, level }
      | _ :: inner => readBrackets? s (Text.takeBytes stop s) (stop + 1) inner

end LogRule

/-- The rules of a filter, in the order in which they are written. -/
abbrev LogFilter := List LogRule

namespace LogFilter

/-- The rule for a record; of two that say the same, the later one. -/
def rule? (f : LogFilter) (r : LogRecord) : Option LogRule :=
  (f.filter (·.concerns r)).foldl
    (fun best rule =>
      match best with
      | some b => if b.yieldsTo rule then some rule else best
      | none => some rule) none

/-- Whether a record is let through. -/
def admits (f : LogFilter) (r : LogRecord) : Bool :=
  (f.rule? r).any fun rule => decide (r.level.rank ≤ rule.level.rank)

/-- The filter that treats all records alike. -/
def everywhere (level : LogLevel) : LogFilter := [{ level }]

/-- A filter as it is written.  Where nothing is said, only errors are let through. -/
def read? (s : List Char) : Option LogFilter :=
  match ((s.splitOn ',').filter (!·.isEmpty)).mapM LogRule.read? with
  | some [] => some (everywhere .error)
  | rules => rules

end LogFilter

/-- The filter of a program: what the command line asks for, or else the environment, or else
everything but the details. -/
def chooseFilter (verbose quiet : Bool) (wish : Option (List Char)) : LogFilter :=
  if verbose then .everywhere .debug
  else if quiet then .everywhere .error
  else (wish.bind LogFilter.read?).getD (.everywhere .info)

end ImportPaths.Terminal
