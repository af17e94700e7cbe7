import ImportPaths.CommandLine.Switch

/-!
# Words about the command line
-/

namespace ImportPaths.CommandLine

/-- How the program is called. -/
def usageText : String :=
  "Usage: reroot [OPTIONS] <COMMAND>\n\n" ++
  "Commands:\n" ++
  "  to-alias     Rewrite relative specifiers as alias-rooted ones\n" ++
  "  to-relative  Rewrite alias-rooted specifiers as relative ones\n" ++
  "  check        Validate configuration and preview pending rewrites\n" ++
  "  init         Write a starter reroot.config.json\n\n" ++
  "Options of every command: -v, --verbose; -q, --quiet; --no-color; -h, --help\n" ++
  "Options of to-alias, to-relative and check: -c, --config <FILE>; -s, --scan-root <DIR>;\n" ++
  "  -e, --ext <EXT>; -a, --alias <TOKEN>; -p, --project-root <DIR>\n" ++
  "Option of to-alias and to-relative: --dry-run\n" ++
  "Options of init: --path <FILE>; -f, --force; --schema\n"

/-- Why a command line is not carried out, in words. -/
def UsageError.message : UsageError → String
  | .nothingGiven | .helpWanted => usageText
  | .versionWanted => version
  | .missingCommand => "a command is missing"
  | .unknownCommand => "there is no such command"
  | .unknownArgument => "there is no such argument"
  | .conflict => "an argument was given twice, or together with one that excludes it"
  | .invalidValue => "a value is missing or empty"
  | .unwantedValue => "a value was given to an argument that takes none"
  | .refusedValue reason => reason

end ImportPaths.CommandLine
