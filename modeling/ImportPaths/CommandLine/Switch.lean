import ImportPaths.Run.Error
import ImportPaths.Token.Extension

/-!
# The switches of the command line

Everything that can be given with a leading dash: its spellings, whether it takes a value, how the
value is read, and on which levels of a command line it may stand.  A command line has two levels:
what comes before the name of a command, and what comes after it.
-/

namespace ImportPaths.CommandLine

/-- Why a command line is not carried out. -/
inductive UsageError where
  /-- Nothing at all was given. -/
  | nothingGiven
  | helpWanted
  | versionWanted
  | missingCommand
  | unknownCommand
  | unknownArgument
  /-- Two switches that exclude each other, or one switch twice. -/
  | conflict
  /-- A missing value, or an empty path. -/
  | invalidValue
  /-- A value for a switch that takes none. -/
  | unwantedValue
  /-- A value that its reader refuses. -/
  | refusedValue (reason : String)
deriving DecidableEq, Inhabited

/-- What is shown when the version is asked for. -/
def version : String := "reroot 0.1.0\n"

/-- A switch. -/
inductive Switch where
  | verbose
  | quiet
  | noColor
  | help
  | version
  | config
  | scanRoot
  | extensions
  | aliasToken
  | projectRoot
  | dryRun
  | path
  | force
  | schema
deriving DecidableEq, Inhabited

namespace Switch

/-- The spelling after two dashes. -/
def long : Switch → String
  | .verbose => "verbose"
  | .quiet => "quiet"
  | .noColor => "no-color"
  | .help => "help"
  | .version => "version"
  | .config => "config"
  | .scanRoot => "scan-root"
  | .extensions => "ext"
  | .aliasToken => "alias"
  | .projectRoot => "project-root"
  | .dryRun => "dry-run"
  | .path => "path"
  | .force => "force"
  | .schema => "schema"

/-- The letter after one dash. -/
def short? : Switch → Option Char
  | .verbose => some 'v'
  | .quiet => some 'q'
  | .help => some 'h'
  | .version => some 'V'
  | .config => some 'c'
  | .scanRoot => some 's'
  | .extensions => some 'e'
  | .aliasToken => some 'a'
  | .projectRoot => some 'p'
  | .force => some 'f'
  | .noColor | .dryRun | .path | .schema => none

/-- How the value of a switch is read. -/
inductive Taking where
  | nothing
  | path
  | aliasToken
  /-- Extensions, with commas between them; the switch may be given again. -/
  | extensions
deriving DecidableEq

def taking : Switch → Taking
  | .config | .scanRoot | .projectRoot | .path => .path
  | .aliasToken => .aliasToken
  | .extensions => .extensions
  | .verbose | .quiet | .noColor | .help | .version | .dryRun | .force | .schema => .nothing

/-- Reads the value of a switch; only extensions come as more than one. -/
def read (s : Switch) (value : List Char) : Except UsageError (List (List Char)) :=
  match s.taking with
  | .nothing => .ok []
  | .path => if value.isEmpty then .error .invalidValue else .ok [value]
  | .aliasToken =>
    match AliasToken.parse value with
    | .ok token => .ok [token]
    | .error e => .error (.refusedValue e.message)
  | .extensions =>
    (value.splitOn ',').mapM fun written =>
      match Extension.parse written with
      | .ok parsed => .ok parsed
      | .error e => .error (.refusedValue e.message)

end Switch

/-- The name of a command. -/
inductive CommandName where
  | toAlias
  | toRelative
  | check
  | init
deriving DecidableEq, Inhabited

namespace CommandName

def all : List CommandName := [.toAlias, .toRelative, .check, .init]

def word : CommandName → String
  | .toAlias => "to-alias"
  | .toRelative => "to-relative"
  | .check => "check"
  | .init => "init"

/-- The command with a given name. -/
def ofWord? (w : List Char) : Option CommandName := all.find? (·.word.toList = w)

end CommandName

/-- A level of the command line: before the name of a command, or after it. -/
inductive Level where
  | top
  | within (command : CommandName)
deriving DecidableEq, Inhabited

namespace Level

/-- The switches that say what to work on. -/
def configSwitches : List Switch := [.config, .scanRoot, .extensions, .aliasToken, .projectRoot]

/-- The switches that may be given on a level. -/
def switches : Level → List Switch
  | .top => [.verbose, .quiet, .noColor, .help, .version]
  | .within command =>
    [.verbose, .quiet, .noColor, .help] ++
      match command with
      | .toAlias | .toRelative => configSwitches ++ [.dryRun]
      | .check => configSwitches
      | .init => [.path, .force, .schema]

def ofLong? (l : Level) (name : List Char) : Option Switch :=
  l.switches.find? (·.long.toList = name)

def ofShort? (l : Level) (letter : Char) : Option Switch :=
  l.switches.find? (·.short? = some letter)

end Level

end ImportPaths.CommandLine
