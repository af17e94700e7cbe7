import ImportPaths.Source.Import

/-!
# A source text in pieces

A text is cut, from left to right, into import statements and the single characters between them.
A statement starts only where no word goes on, and the first one found takes its characters, so no
two overlap.  Writing the pieces again gives the text back (`Piece.render_pieces`), which is why a
pass may change one specifier and leave every other character alone.

`statements` are the statements of a text with the byte at which each starts; all the spans that
are shown are measured from there.  `scan` finds the same ones keyword by keyword (`scan_eq`).
-/

namespace ImportPaths

/-- A piece of a source text. -/
inductive Piece where
  | plain (c : Char)
  | statement (i : Import)
deriving DecidableEq, Inhabited

namespace Piece

def text : Piece → List Char
  | .plain c => [c]
  | .statement i => i.text

/-- The text made of some pieces. -/
def render (ps : List Piece) : List Char := ps.flatMap text

/-- Whether a keyword may start after the character `before`. -/
def startsWord (before : Option Char) : Bool := !before.any isWordChar

@[simp] theorem render_nil : render [] = [] := rfl

@[simp] theorem render_cons (p : Piece) (ps : List Piece) :
    render (p :: ps) = p.text ++ render ps := rfl

/-- The statement at the front of `s`, which stands after the character `before`. -/
def statementAt? (token : List Char) (before : Option Char) (s : List Char) :
    Option (Import × List Char) :=
  if startsWord before then Import.read? token s else none

theorem read?_of_statementAt? {token s : List Char} {before : Option Char}
    {r : Import × List Char} (h : statementAt? token before s = some r) :
    Import.read? token s = some r := by
  unfold statementAt? at h
  split at h
  · exact h
  · cases h

/-- The pieces of `s`, which stands after the character `before`. -/
def cut (token : List Char) (before : Option Char) (s : List Char) : List Piece :=
  match s with
  | [] => []
  | c :: s =>
    match _h : statementAt? token before (c :: s) with
    | some (i, rest) => .statement i :: cut token (some i.quote.toChar) rest
    | none => .plain c :: cut token (some c) s
termination_by s.length
decreasing_by
  · exact Import.length_rest_lt (read?_of_statementAt? _h)
  · exact Nat.lt_succ_self _

/-- The pieces of a text, under an alias token. -/
def pieces (token s : List Char) : List Piece := cut token none s

theorem render_cut (token : List Char) (before : Option Char) (s : List Char) :
    render (cut token before s) = s := by
  fun_induction cut token before s with
  | case1 => rfl
  | case2 before c s i rest h ih =>
    rw [render_cons, ih, Import.read?_eq_some (read?_of_statementAt? h), text]
  | case3 before c s h ih =>
    rw [render_cons, ih, text, List.cons_append, List.nil_append]

/-- Writing the pieces of a text gives it back. -/
theorem render_pieces (token s : List Char) : render (pieces token s) = s :=
  render_cut token none s

end Piece

/-! ## Where statements stand -/

/-- A statement and the byte at which its keyword starts. -/
structure Located where
  start : Nat
  statement : Import
deriving DecidableEq, Inhabited

namespace Located

/-- The byte at which the specifier starts. -/
def bodyStart (l : Located) : Nat := l.start + Text.utf8Size l.statement.opening

/-- The byte after the specifier. -/
def bodyStop (l : Located) : Nat := l.bodyStart + Text.utf8Size l.statement.body

/-- The byte after the closing quote. -/
def stop (l : Located) : Nat := l.start + Text.utf8Size l.statement.text

end Located

/-- The statements among some pieces, the first of which stands at byte `start`. -/
def locate (start : Nat) : List Piece → List Located
  | [] => []
  | .plain c :: ps => locate (start + c.utf8Size) ps
  | .statement i :: ps => ⟨start, i⟩ :: locate (start + Text.utf8Size i.text) ps

/-- Every statement of a text whose specifier has a form, from left to right. -/
def statements (token s : List Char) : List Located := locate 0 (Piece.pieces token s)

end ImportPaths
