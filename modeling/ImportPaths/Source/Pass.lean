import ImportPaths.Direction
import ImportPaths.Settings
import ImportPaths.Specifier.Subpath

/-!
# A pass over a text

A pass looks at every statement of a text and gives a `Verdict` on it: left alone, given another
specifier, or recognised but impossible to express the other way.  Only the specifiers that were
given a new text change.
-/

namespace ImportPaths

/-- What a pass does with a statement. -/
inductive Verdict where
  /-- The statement is none of the pass's business. -/
  | kept
  /-- The specifier is replaced. -/
  | replaced (body : List Char)
  /-- The specifier cannot be expressed the other way, and is left alone. -/
  | unresolved
deriving DecidableEq, Inhabited

/-- What comes out of a pass over a text. -/
structure Outcome where
  content : List Char
  /-- How many specifiers were replaced. -/
  replaced : Nat
  /-- The specifiers that could not be expressed the other way. -/
  unresolved : List (List Char)
deriving DecidableEq, Inhabited

/-- Whether any specifier was replaced. -/
def Outcome.changed (o : Outcome) : Bool := o.replaced != 0

/-- The specifier of the other form that names the same place for a file in `dir`.  A subpath that
starts with the alias token again is not taken apart. -/
def Settings.otherForm? (s : Settings) (dir : Path) (i : Import) : Option (List Char) :=
  match i.form with
  | .aliasRooted subpath =>
    if (s.token ++ ['/']).isPrefixOf subpath then none
    else relativeSpecifier? dir subpath s.projectRoot
  | .relativeUp _ _ | .relativeSame _ =>
    (aliasSubpath? dir i.body s.projectRoot).map fun subpath => s.token ++ '/' :: subpath

/-- The verdict on a statement of a file in `dir`. -/
def Settings.judge (s : Settings) (d : Direction) (dir : Path) (i : Import) : Verdict :=
  if d.accepts i.form then
    match s.otherForm? dir i with
    | none => .unresolved
    | some body => if body = i.body then .kept else .replaced body
  else .kept

namespace Verdict

/-- A piece after the verdict on its statement. -/
def apply (judge : Import → Verdict) : Piece → List Char
  | .plain c => [c]
  | .statement i =>
    match judge i with
    | .replaced body => { i with body }.text
    | .kept | .unresolved => i.text

/-- Whether a piece gets another specifier. -/
def replaces (judge : Import → Verdict) : Piece → Bool
  | .plain _ => false
  | .statement i => match judge i with
    | .replaced _ => true
    | _ => false

/-- The specifier of a piece that cannot be expressed the other way. -/
def unresolved? (judge : Import → Verdict) : Piece → Option (List Char)
  | .plain _ => none
  | .statement i => match judge i with
    | .unresolved => some i.body
    | _ => none

end Verdict

/-- The directory in which the specifiers of a file are understood. -/
def Path.directory (p : Path) : Path := p.parent?.getD ⟨[]⟩

/-- A pass over the text of the file at `path`. -/
def Settings.pass (s : Settings) (d : Direction) (path : Path) (text : List Char) : Outcome :=
  let judge := s.judge d path.directory
  let ps := Piece.pieces s.token text
  { content := ps.flatMap (Verdict.apply judge)
    replaced := ps.countP (Verdict.replaces judge)
    unresolved := ps.filterMap (Verdict.unresolved? judge) }

end ImportPaths
