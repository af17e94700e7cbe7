import ImportPaths.Specifier.Subpath

/-!
# Naming a place by paths of bytes

To the system a path is a row of bytes, which need not be those of a text; only specifiers always
are texts.  What is asked of a path, where its slashes and dots are, can be asked of bytes as well:
a path of bytes is looked at as the path with one character, a letter, for each byte.  A specifier
is put into such a path by its bytes.  The other way round a name is taken out of it as the text
that its bytes stand for, and where there is none, there is no specifier either.
-/

namespace ImportPaths

/-! ## Letters -/

/-- The character that stands for a byte. -/
def letter (b : UInt8) : Char := Char.ofNat b.toNat

/-- The byte for which a letter stands. -/
def byte? (c : Char) : Option UInt8 := if c.toNat < 256 then some (UInt8.ofNat c.toNat) else none

/-- The letters of a text. -/
def Text.letters (s : List Char) : List Char := (Text.bytes s).map letter

/-- The text that some letters stand for. -/
def Text.ofLetters? (s : List Char) : Option (List Char) :=
  (s.mapM byte?).bind fun bs => decode? bs.toByteArray

/-- A name as a text. -/
def Component.text? (c : Component) : Option (List Char) := c.name?.bind Text.ofLetters?

/-! ## Paths of bytes -/

/-- A path as the system has it. -/
structure SystemPath where
  bytes : List UInt8

namespace SystemPath

/-- The path that is a text. -/
def ofText (s : List Char) : SystemPath := ⟨Text.bytes s⟩

/-- The view of a path. -/
def letters (p : SystemPath) : Path := ⟨p.bytes.map letter⟩

/-- The place a relative specifier names for a file in the directory `dir`. -/
def resolveRelative (dir : SystemPath) (relative : List Char) : Path :=
  ImportPaths.resolveRelative dir.letters (Text.letters relative)

/-- The place an alias subpath names under a project root. -/
def resolveAlias (root : SystemPath) (subpath : List Char) : Path :=
  ImportPaths.resolveAlias root.letters (Text.letters subpath)

/-- The subpath under `root` that names what `relative` names in `dir`. -/
def aliasSubpath? (dir : SystemPath) (relative : List Char) (root : SystemPath) :
    Option (List Char) :=
  let stripped := stripMarks relative
  let marksOnly := stripped.isEmpty && !relative.isEmpty
  if !marksOnly && !isPlainSubpath stripped then none
  else
    match ((dir.resolveRelative relative).below? root.letters).bind (·.mapM Component.text?) with
    | some (s :: segments) => some (Path.joinSegments (s :: segments))
    | _ => none

/-- How many steps up lead from `base` to where `target` branches off, and the names from there. -/
def stepsTo? (target base : Path) : Option (Nat × List (List Char)) :=
  let (down, back) := dropCommon target.components base.components
  match back.mapM Component.name?, down.mapM Component.text? with
  | some names, some segments => some (names.length, segments)
  | _, _ => none

/-- The relative specifier that names in `dir` what `subpath` names under `root`. -/
def relativeSpecifier? (dir : SystemPath) (subpath : List Char) (root : SystemPath) :
    Option (List Char) :=
  if !isPlainSubpath subpath then none
  else
    let target := root.resolveAlias subpath
    if !target.startsWith root.letters then none
    else
      (stepsTo? target dir.letters.clean).map fun (hops, segments) =>
        climb hops ++ Path.joinSegments segments

end SystemPath

end ImportPaths
