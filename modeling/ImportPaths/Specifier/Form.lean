import ImportPaths.Text.Basic

/-!
# Specifiers and their forms

A specifier is what stands between the quotes of an import statement.  Three forms matter: rooted
at the alias token (`@/lib/db`), climbing from the importing directory (`../../lib/db`) and inside
it (`./db`).  Any other specifier, such as a package name, has no form and is left alone.
-/

namespace ImportPaths

/-- The mark of the importing directory. -/
def sameMark : List Char := ['.', '/']

/-- The mark of one step up from the importing directory. -/
def upMark : List Char := ['.', '.', '/']

/-- How a specifier names a place. -/
inductive Form where
  /-- The alias token, a slash and a subpath. -/
  | aliasRooted (subpath : List Char)
  /-- `../` written `hops` times, then a subpath. -/
  | relativeUp (hops : Nat) (subpath : List Char)
  /-- `./`, then a subpath. -/
  | relativeSame (subpath : List Char)
deriving DecidableEq, Inhabited

namespace Form

def isAlias : Form → Bool
  | .aliasRooted _ => true
  | _ => false

def isRelative : Form → Bool
  | .aliasRooted _ => false
  | _ => true

/-! ## Reading -/

/-- The number of leading `../` of a specifier, and what follows them. -/
def countUp : List Char → Nat × List Char
  | '.' :: '.' :: '/' :: rest => let (n, s) := countUp rest; (n + 1, s)
  | s => (0, s)

/-- The alias token, a slash and at least one more character. -/
def aliasRooted? (token body : List Char) : Option Form :=
  match (token ++ ['/']).isPrefixOf? body with
  | some [] | none => none
  | some subpath => some (.aliasRooted subpath)

/-- At least one `../`. -/
def relativeUp? (body : List Char) : Option Form :=
  match countUp body with
  | (0, _) => none
  | (hops, subpath) => some (.relativeUp hops subpath)

/-- One `./`. -/
def relativeSame? (body : List Char) : Option Form :=
  (sameMark.isPrefixOf? body).map .relativeSame

/-- The ways to read a specifier, in the order in which they are tried. -/
def readers (token : List Char) : List (List Char → Option Form) :=
  [aliasRooted? token, relativeUp?, relativeSame?]

/-- The form of a specifier under an alias token. -/
def ofBody? (token body : List Char) : Option Form :=
  (readers token).findSome? (· body)

/-! ## Writing -/

/-- The specifier with a given form. -/
def body (token : List Char) : Form → List Char
  | .aliasRooted subpath => token ++ '/' :: subpath
  | .relativeUp hops subpath => (List.replicate hops upMark).flatten ++ subpath
  | .relativeSame subpath => sameMark ++ subpath

end Form

end ImportPaths
