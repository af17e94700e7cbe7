import ImportPaths.Text.Basic

/-!
# Paths

A path is a text, kept as it was written.  It is understood through one view, its list of
`components`: the root, a leading `.`, each `..` and each plain name.  Empty segments and further
`.` segments are not components, so `a//b/./c/` and `a/b/c` have the same ones.

Where a piece of a path is shown again (a parent directory, what stands below another path), the
text between the components that remain is kept too; `Layout` is the text taken apart for that.
-/

namespace ImportPaths

/-- What stands between two slashes of a path. -/
abbrev Segment := List Char

/-- A path, as it was written. -/
structure Path where
  chars : List Char
deriving DecidableEq, Inhabited

/-- One step of a path. -/
inductive Component where
  /-- The `/` a path starts at. -/
  | root
  /-- A `.` at the very front. -/
  | here
  /-- A `..`. -/
  | up
  /-- Any other segment. -/
  | name (segment : Segment)
deriving DecidableEq, Inhabited

namespace Component

/-- The component a segment stands for; empty segments and `.` stand for none. -/
def ofSegment? (s : Segment) : Option Component :=
  if s = [] ∨ s = ['.'] then none
  else if s = ['.', '.'] then some .up
  else some (.name s)

/-- The text of a component, where the root is the empty text before the first slash. -/
def segment : Component → Segment
  | .root => []
  | .here => ['.']
  | .up => ['.', '.']
  | .name s => s

/-- The segment of a plain name. -/
def name? : Component → Option Segment
  | .name s => some s
  | _ => none

end Component

namespace Path

/-- The path with the text `s`. -/
def ofString (s : String) : Path := ⟨s.toList⟩

/-- The text of a path, as it is shown. -/
protected def toString (p : Path) : String := String.ofList p.chars

instance : ToString Path := ⟨Path.toString⟩

/-! ## The view -/

/-- A text taken apart: whether it starts at the root, whether it starts with `.`, and the
segments that follow. -/
structure Layout where
  rooted : Bool
  here : Bool
  body : List Segment

/-- The layout of a path. -/
def layout (p : Path) : Layout :=
  match p.chars with
  | '/' :: rest => ⟨true, false, rest.splitOn '/'⟩
  | text =>
    match text.splitOn '/' with
    | ['.'] :: rest => ⟨false, true, rest⟩
    | segments => ⟨false, false, segments⟩

/-- The text of a list of segments. -/
def joinSegments (segments : List Segment) : List Char := ['/'].intercalate segments

/-- The path with a given layout. -/
def Layout.toPath (l : Layout) : Path :=
  if l.rooted then ⟨'/' :: joinSegments l.body⟩
  else if l.here then ⟨joinSegments (['.'] :: l.body)⟩
  else ⟨joinSegments l.body⟩

/-- The components that come before the body. -/
def Layout.front (l : Layout) : List Component :=
  if l.rooted then [.root] else if l.here then [.here] else []

/-- The components of a path. -/
def components (p : Path) : List Component :=
  p.layout.front ++ p.layout.body.filterMap Component.ofSegment?

/-- The path written with exactly the given components. -/
def ofComponents : List Component → Path
  | .root :: rest => ⟨'/' :: joinSegments (rest.map Component.segment)⟩
  | cs => ⟨joinSegments (cs.map Component.segment)⟩

/-! ## Asking -/

/-- Whether a path starts at the root. -/
def isAbsolute (p : Path) : Bool := p.chars.head? == some '/'

/-- The components of `p` below `base`, when the components of `base` come first in those of `p`. -/
def below? (p base : Path) : Option (List Component) :=
  base.components.isPrefixOf? p.components

/-- Whether `p` is `base` or lies below it, component by component. -/
def startsWith (p base : Path) : Bool := base.components.isPrefixOf p.components

/-- Whether a segment is no component. -/
def isIdle (s : Segment) : Bool := s = [] ∨ s = ['.']

/-- A body without its last segments that are no components. -/
def trimIdle (body : List Segment) : List Segment := (body.reverse.dropWhile isIdle).reverse

/-- The directory of a path: the path without its last component, and without the text that then
trails.  The root and the empty path have none. -/
def parent? (p : Path) : Option Path :=
  let l := p.layout
  match (trimIdle l.body).reverse with
  | _ :: rest => some (Layout.toPath { l with body := trimIdle rest.reverse })
  | [] => if l.here then some ⟨[]⟩ else none

/-- The last component of a path, when it is a plain name. -/
def fileName? (p : Path) : Option Segment :=
  (p.layout.body.filterMap Component.ofSegment?).getLast?.bind Component.name?

/-- What follows the last dot of the file name.  A dot at the very front does not count. -/
def extension? (p : Path) : Option (List Char) :=
  p.fileName?.bind fun name =>
    match Text.splitLast? '.' name with
    | some ([], _) | none => none
    | some (_, ext) => some ext

/-! ## Building -/

/-- `p` followed by `q`.  An absolute `q` stands alone, and so does `q` after an empty path. -/
def join (p q : Path) : Path :=
  if q.isAbsolute || p.chars.isEmpty then q
  else if p.chars.getLast? == some '/' then ⟨p.chars ++ q.chars⟩
  else ⟨p.chars ++ '/' :: q.chars⟩

/-- `p` with its file name replaced; `name` is added when there is none to replace. -/
def withFileName (p : Path) (name : Segment) : Path :=
  match p.fileName? with
  | some _ => (p.parent?.getD ⟨[]⟩).join ⟨name⟩
  | none => p.join ⟨name⟩

/-- A body without its first `n` components, starting at the next one. -/
def dropComponents : Nat → List Segment → List Segment
  | _, [] => []
  | n, s :: body =>
    if isIdle s then dropComponents n body
    else match n with
      | 0 => s :: body
      | n + 1 => dropComponents n body

/-- What is left to write of `p` when one stands at `base`, in the words of `p`. -/
def relativeTo? (p base : Path) : Option Path :=
  let l := p.layout
  if p.startsWith base then
    if base.components.isEmpty then
      some (Layout.toPath { l with body := trimIdle l.body })
    else
      let n := base.components.length - l.front.length
      some (Layout.toPath ⟨false, false, trimIdle (dropComponents n l.body)⟩)
  else none

end Path

end ImportPaths
