import ImportPaths.Command.Error
import ImportPaths.Config.Basic

/-!
# Checking a configuration

The values of a configuration are checked by the rules that the command line has for them.  Whether
its directories are there is a question for the disk, and is asked later.
-/

namespace ImportPaths.Config

/-- An extension as the configuration has it. -/
def checkExtension (written : List Char) : Except ConfigError Unit :=
  match Extension.parse written with
  | .ok _ => .ok ()
  | .error fault =>
    .error (.invalidValue "extensions" (String.ofList written) fault.message)

/-- The alias token as the configuration has it. -/
def checkAlias (written : List Char) : Except ConfigError Unit :=
  match AliasToken.parse written with
  | .ok _ => .ok ()
  | .error e =>
    .error (.invalidValue "aliasPrefix" (String.ofList written)
      (e.message ++ "; use a token such as '@' or '~'"))

/-- Checks the values of a configuration: the extensions, then the alias token. -/
def check (c : Config) : Except ConfigError Unit :=
  if c.extensions.isEmpty then
    .error (.missingField "extensions"
      "List at least one extension, e.g. [\"ts\", \"tsx\"], or pass --ext")
  else do
    c.extensions.forM checkExtension
    checkAlias c.aliasPrefix

end ImportPaths.Config
