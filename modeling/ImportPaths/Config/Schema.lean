import ImportPaths.Config.Basic

/-!
# The schema of configurations

The JSON schema that an editor checks a configuration file by.
-/

namespace ImportPaths.Config

open Json

/-- A member of an object in the schema. -/
private def entry (key : String) (v : Value) : List Char × Value := (key.toList, v)

private def text (s : String) : Value := .string s.toList

/-- The name of the file the schema is written to. -/
def schemaFileName : List Char := "reroot.schema.json".toList

/-- The form of alias tokens, as a pattern: no dot at the front, no separator, quote or blank, and
perhaps a slash at the end. -/
def aliasPattern : String := "^[^./\\\\'\"`\\s][^/\\\\'\"`\\s]*/?$"

/-- The schema. -/
def jsonSchema : Value :=
  let default : Config := {}
  .object [
    entry "$schema" (text "https://json-schema.org/draft/2020-12/schema"),
    entry "additionalProperties" (.bool false),
    entry "description" (text ("reroot configuration - loaded from reroot.config.json, " ++
      "`REROOT_*` and CLI args.\n\nRelative roots are resolved against the working directory.")),
    entry "properties" (.object [
      (schemaKey, .object [
        entry "description" (text "Editor hint pointing at the JSON schema"),
        entry "type" (.array [text "string", text "null"])]),
      (aliasPrefixKey, .object [
        entry "default" (.string default.aliasPrefix),
        entry "description"
          (text "Alias token standing for the project root (e.g. \"@\" for \"@/lib/db\")"),
        entry "pattern" (text aliasPattern),
        entry "type" (text "string")]),
      (extensionsKey, .object [
        entry "default" (.array (default.extensions.map .string)),
        entry "description"
          (text "File extensions to rewrite, with or without the leading dot"),
        entry "items" (.object [entry "type" (text "string")]),
        entry "type" (text "array")]),
      (projectRootKey, .object [
        entry "default" (.string default.projectRoot.chars),
        entry "description" (text "Directory the alias token resolves to"),
        entry "type" (text "string")]),
      (scanRootKey, .object [
        entry "default" (.string default.scanRoot.chars),
        entry "description" (text "Directory whose files are rewritten"),
        entry "type" (text "string")])]),
    entry "title" (text "RerootConfig"),
    entry "type" (text "object")]

/-- The text of the schema file. -/
def schemaText : List Char := jsonSchema.pretty ++ ['\n']

end ImportPaths.Config
