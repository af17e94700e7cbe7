import ImportPaths.Source.Pieces

/-!
# Directions

A pass turns relative specifiers into alias-rooted ones, or the other way.  It acts on statements
in the form it comes from and never on those already in the form it leads to.
-/

namespace ImportPaths

/-- Which form a pass leads to. -/
inductive Direction where
  | toAlias
  | toRelative
deriving DecidableEq, Inhabited

namespace Direction

/-- Both directions, in the order in which they are previewed. -/
def all : List Direction := [.toAlias, .toRelative]

/-- Whether a pass acts on a specifier of a form. -/
def accepts : Direction → Form → Bool
  | .toAlias, form => form.isRelative
  | .toRelative, form => form.isAlias

/-- The direction as it is shown. -/
protected def toString : Direction → String
  | .toAlias => "relative -> alias"
  | .toRelative => "alias -> relative"

instance : ToString Direction := ⟨Direction.toString⟩

/-- The marks at which the specifiers of a direction start. -/
def marks (token : List Char) : Direction → List (List Char)
  | .toAlias => [sameMark, upMark]
  | .toRelative => [token ++ ['/']]

end Direction

/-- The statements of a text that a pass acts on. -/
def statementsFor (token : List Char) (d : Direction) (s : List Char) : List Located :=
  (statements token s).filter fun l => d.accepts l.statement.form

/-- A cheap look for a quote followed by a mark of the direction.  Where there is none, there is
no statement for the pass either. -/
def hasCandidates (token : List Char) (d : Direction) (s : List Char) : Bool :=
  (d.marks token).any fun mark =>
    ['\'', '"'].any fun quote => Text.occursIn (quote :: mark) s

end ImportPaths
