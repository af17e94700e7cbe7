import ImportPaths.Json.Printer
import ImportPaths.Json.Reader
import ImportPaths.Settings

/-!
# Configurations

What a user writes down about a project, as it was written.  In JSON a configuration is an object
with some of five members, each at most once and in any order; a member that is missing has its
default.  The five values may also stand in an array, in the order of the members, and may stop
short.  `$schema`, which only helps an editor, may be `null`.
-/

namespace ImportPaths

/-- A configuration as a user writes it. -/
structure Config where
  schema : Option (List Char) := none
  scanRoot : Path := ⟨"app".toList⟩
  extensions : List (List Char) := ["ts".toList, "tsx".toList]
  aliasPrefix : List Char := "@".toList
  projectRoot : Path := ⟨".".toList⟩
deriving DecidableEq, Inhabited

namespace Config

open Json

/-! ## The members -/

def schemaKey : List Char := "$schema".toList

def scanRootKey : List Char := "scanRoot".toList

def extensionsKey : List Char := "extensions".toList

def aliasPrefixKey : List Char := "aliasPrefix".toList

def projectRootKey : List Char := "projectRoot".toList

/-- The names of the members, in order. -/
def keys : List (List Char) :=
  [schemaKey, scanRootKey, extensionsKey, aliasPrefixKey, projectRootKey]

/-! ## Writing -/

/-- A configuration as a JSON value; without a `$schema` that is not there. -/
def toJson (c : Config) : Value :=
  .object ((c.schema.map fun s => (schemaKey, Value.string s)).toList ++ [
    (scanRootKey, .string c.scanRoot.chars),
    (extensionsKey, .array (c.extensions.map .string)),
    (aliasPrefixKey, .string c.aliasPrefix),
    (projectRootKey, .string c.projectRoot.chars)])

/-- The text of a first configuration, which says what holds anyway. -/
def exampleText (schema : Option (List Char)) : List Char :=
  { schema : Config }.toJson.pretty ++ ['\n']

/-! ## Reading -/

/-- The value of the member `key`, which may be missing but may not be there twice. -/
def member {α : Type} (members : List (List Char × Value)) (key : List Char)
    (read : Value → Option α) (default : α) : Option α :=
  match members.filter (·.1 == key) with
  | [] => some default
  | [(_, v)] => read v
  | _ => none

/-- The value at a place of an array, which may be missing. -/
def item {α : Type} (items : List Value) (n : Nat) (read : Value → Option α) (default : α) :
    Option α :=
  match items[n]? with
  | some v => read v
  | none => some default

/-- The path a string value stands for. -/
def path? (v : Value) : Option Path := v.string?.map Path.mk

/-- The configuration with the given members. -/
def ofMembers? (ms : List (List Char × Value)) : Option Config :=
  let default : Config := {}
  if ms.all fun m => keys.contains m.1 then do
    let schema ← member ms schemaKey Value.nullable? default.schema
    let scanRoot ← member ms scanRootKey path? default.scanRoot
    let extensions ← member ms extensionsKey Value.strings? default.extensions
    let aliasPrefix ← member ms aliasPrefixKey Value.string? default.aliasPrefix
    let projectRoot ← member ms projectRootKey path? default.projectRoot
    return { schema, scanRoot, extensions, aliasPrefix, projectRoot }
  else none

/-- The configuration with the given values, in the order of the members. -/
def ofItems? (vs : List Value) : Option Config :=
  let default : Config := {}
  if vs.length ≤ keys.length then do
    let schema ← item vs 0 Value.nullable? default.schema
    let scanRoot ← item vs 1 path? default.scanRoot
    let extensions ← item vs 2 Value.strings? default.extensions
    let aliasPrefix ← item vs 3 Value.string? default.aliasPrefix
    let projectRoot ← item vs 4 path? default.projectRoot
    return { schema, scanRoot, extensions, aliasPrefix, projectRoot }
  else none

/-- The configuration a JSON value stands for. -/
def ofJson? : Value → Option Config
  | .object ms => ofMembers? ms
  | .array vs => ofItems? vs
  | _ => none

/-- The configuration a JSON text stands for. -/
def read? (text : List Char) : Option Config := (Value.read? text).bind ofJson?

/-! ## Use -/

/-- The settings of a run from the directory `cwd`. -/
def toSettings (c : Config) (cwd : Path) : Settings :=
  ((({ scanRoot := c.scanRoot, projectRoot := c.projectRoot : Settings }).withExtensions
    c.extensions).withToken c.aliasPrefix).anchored cwd

end Config

end ImportPaths
