import ImportPaths.Path.Clean
import ImportPaths.Specifier.Form

/-!
# Naming a place from the alias root and from a directory

The same place can be named from the project root (the subpath after the alias token) or from the
directory of the importing file (a relative specifier).  The two functions here go from one to the
other.  They look at paths by their text alone, and answer `none` where they would have to guess:
when a segment inside the specifier is empty, `.` or `..`, and when the place is not strictly below
the project root.

Paths are texts here.  Those of the system need not be, and are taken apart in the same way as
`SystemPath`s.
-/

namespace ImportPaths

/-! ## Subpaths -/

/-- A relative specifier without its leading `./`, or else without its leading `../`s. -/
def stripMarks (relative : List Char) : List Char :=
  match sameMark.isPrefixOf? relative with
  | some rest => rest
  | none => (Form.countUp relative).2

/-- A segment that is neither empty nor `.` nor `..`. -/
def isPlainSegment (s : Segment) : Bool := s ≠ [] ∧ s ≠ ['.'] ∧ s ≠ ['.', '.']

/-- A subpath of plain segments only. -/
def isPlainSubpath (subpath : List Char) : Bool :=
  !subpath.isEmpty && (subpath.splitOn '/').all isPlainSegment

/-! ## Resolving -/

/-- The place a relative specifier names for a file in the directory `dir`. -/
def resolveRelative (dir : Path) (relative : List Char) : Path := (dir.join ⟨relative⟩).clean

/-- The place an alias subpath names under a project root. -/
def resolveAlias (root : Path) (subpath : List Char) : Path := (root.join ⟨subpath⟩).clean

/-! ## From the importing directory to the alias root -/

/-- The subpath under `root` that names what `relative` names in `dir`. -/
def aliasSubpath? (dir : Path) (relative : List Char) (root : Path) : Option (List Char) :=
  let stripped := stripMarks relative
  let marksOnly := stripped.isEmpty && !relative.isEmpty
  if !marksOnly && !isPlainSubpath stripped then none
  else
    match ((resolveRelative dir relative).below? root).bind (·.mapM Component.name?) with
    | some (s :: segments) => some (Path.joinSegments (s :: segments))
    | _ => none

/-! ## From the alias root to the importing directory -/

/-- The two lists without what they share at the front. -/
def dropCommon : List Component → List Component → List Component × List Component
  | a :: as, b :: bs => if a = b then dropCommon as bs else (a :: as, b :: bs)
  | as, bs => (as, bs)

/-- How many steps up lead from `base` to where `target` branches off, and the names from there. -/
def stepsTo? (target base : Path) : Option (Nat × List Segment) :=
  let (down, back) := dropCommon target.components base.components
  match back.mapM Component.name?, down.mapM Component.name? with
  | some names, some segments => some (names.length, segments)
  | _, _ => none

/-- The marks of a specifier that climbs `hops` directories. -/
def climb (hops : Nat) : List Char :=
  if hops = 0 then sameMark else (List.replicate hops upMark).flatten

/-- The relative specifier that names in `dir` what `subpath` names under `root`. -/
def relativeSpecifier? (dir : Path) (subpath : List Char) (root : Path) : Option (List Char) :=
  if !isPlainSubpath subpath then none
  else
    let target := resolveAlias root subpath
    if !target.startsWith root then none
    else
      (stepsTo? target dir.clean).map fun (hops, segments) =>
        climb hops ++ Path.joinSegments segments

end ImportPaths
