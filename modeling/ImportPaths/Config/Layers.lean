import ImportPaths.Command.Error
import ImportPaths.CommandLine.Invocation
import ImportPaths.Config.Basic
import ImportPaths.Config.Variable

/-!
# Putting a configuration together

A configuration is made of four layers: the defaults, a file, the environment and the command line.
For each field the highest layer that says something about it is heard, and only then is it asked
whether the value is of the right type, so a wrong value that nobody hears does no harm.
-/

namespace ImportPaths

/-- A field that every layer can set. -/
inductive Field where
  | scanRoot
  | extensions
  | aliasPrefix
  | projectRoot
deriving DecidableEq, Inhabited

namespace Field

def all : List Field := [.scanRoot, .extensions, .aliasPrefix, .projectRoot]

/-- The name of the field in a file. -/
def key : Field → List Char
  | .scanRoot => Config.scanRootKey
  | .extensions => Config.extensionsKey
  | .aliasPrefix => Config.aliasPrefixKey
  | .projectRoot => Config.projectRootKey

/-- The name of the environment variable of a field, in lower case. -/
def variableName : Field → List Char
  | .scanRoot => "reroot_scan_root".toList
  | .extensions => "reroot_extensions".toList
  | .aliasPrefix => "reroot_alias_prefix".toList
  | .projectRoot => "reroot_project_root".toList

/-- Whether a variable sets the field: blanks around its name and the case of its letters do not
matter. -/
def isSetBy (f : Field) (name : List Char) : Bool :=
  (Text.trim name).map Char.toLower == f.variableName

end Field

/-- What a layer says about each field. -/
abbrev Layer := Field → Option Datum

namespace Layer

/-- One layer on top of another. -/
def onTopOf (upper lower : Layer) : Layer := fun f => (upper f).or (lower f)

/-- What holds when nothing is said. -/
def defaults : Layer := fun f =>
  let default : Config := {}
  some (match f with
    | .scanRoot => .text default.scanRoot.chars
    | .extensions => .list (default.extensions.map .text)
    | .aliasPrefix => .text default.aliasPrefix
    | .projectRoot => .text default.projectRoot.chars)

/-- What the members of an object say; of two with one name, the later is heard. -/
def ofMembers (ms : List (List Char × Json.Value)) : Layer := fun f =>
  (ms.filter (·.1 == f.key)).getLast?.map fun m => Datum.ofJson m.2

/-- What the environment says; of two variables for one field, the later is heard. -/
def ofVariables (env : List (List Char × List Char)) : Layer := fun f =>
  (env.filter (f.isSetBy ·.1)).getLast?.map fun v => Variable.read v.2

/-- What the command line says; extensions are set as soon as there is one. -/
def ofArgs (args : CommandLine.ConfigArgs) : Layer
  | .scanRoot => args.scanRoot.map (.text ·.chars)
  | .extensions =>
    if args.extensions.isEmpty then none else some (.list (args.extensions.map .text))
  | .aliasPrefix => args.token.map .text
  | .projectRoot => args.projectRoot.map (.text ·.chars)

/-- The configuration that a layer says, when every field is of its type. -/
def config? (l : Layer) (schema : Option (List Char)) : Option Config := do
  let scanRoot ← (← l .scanRoot).text?
  let extensions ← (← l .extensions).texts?
  let aliasPrefix ← (← l .aliasPrefix).text?
  let projectRoot ← (← l .projectRoot).text?
  return { schema, scanRoot := ⟨scanRoot⟩, extensions, aliasPrefix, projectRoot := ⟨projectRoot⟩ }

end Layer

namespace Config

/-- The `$schema` of a file; of two, the later is heard. -/
def fileSchema? (ms : List (List Char × Json.Value)) : Option (Option (List Char)) :=
  match (ms.filter (·.1 == schemaKey)).getLast? with
  | some (_, v) => v.nullable?
  | none => some none

/-- The configuration made of a file's members, the environment and the command line. -/
def ofLayers? (file : List (List Char × Json.Value)) (env : List (List Char × List Char))
    (args : CommandLine.ConfigArgs) : Option Config :=
  if file.all fun m => keys.contains m.1 then
    match fileSchema? file with
    | some schema =>
      Layer.config? (.onTopOf (.ofArgs args) (.onTopOf (.ofVariables env)
        (.onTopOf (.ofMembers file) .defaults))) schema
    | none => none
  else none

/-- The members of the object that a file holds. -/
def fileMembers? (text : List Char) : Option (List (List Char × Json.Value)) :=
  match Json.Value.read? text with
  | some (.object ms) => some ms
  | _ => none

end Config

end ImportPaths
