import ImportPaths.Run.Error

/-!
# Why a command fails

Every failure has a message, and a report that goes to the user.  A failure can be told more about
on its way up: `withPath` names the file of a disk operation, `withHint` adds advice at the end,
`context` says in front what was being done.
-/

namespace ImportPaths

/-- What can be wrong with a configuration. -/
inductive ConfigError where
  | notFound (path : Path)
  | alreadyExists (path : Path)
  | missingField (field hint : String)
  | invalidValue (field value hint : String)
  /-- The layers do not make up a configuration. -/
  | load (detail : String)
deriving DecidableEq, Inhabited

/-- A message with advice after it. -/
def hinted (message hint : String) : String := message ++ "\n\nHint: " ++ hint

def ConfigError.message : ConfigError → String
  | .notFound path =>
    hinted ("Config file not found: " ++ path.toString)
      "Create one with 'reroot init' or check the --config path"
  | .alreadyExists path =>
    hinted ("Config file already exists: " ++ path.toString) "Pass --force to overwrite it"
  | .missingField field hint => hinted ("Missing required field: " ++ field) hint
  | .invalidValue field value hint =>
    hinted ("Invalid value for '" ++ field ++ "': " ++ value) hint
  | .load detail =>
    hinted ("Failed to load configuration: " ++ detail)
      "Check reroot.config.json and REROOT_* variables for typos and field types"

/-- Why a command fails. -/
inductive CommandError where
  | config (e : ConfigError)
  | run (e : RunError)
  | fileNotFound (path : Path)
  | disk (fault : DiskFault)
  | json (detail : String)
  /-- A failure of which only the words are left. -/
  | custom (words : String)
deriving DecidableEq, Inhabited

namespace CommandError

def message : CommandError → String
  | .config e => "Configuration error: " ++ e.message
  | .run e => e.message
  | .fileNotFound path => "File not found: " ++ path.toString
  | .disk fault => "I/O error: " ++ fault.message
  | .json detail => "JSON error: " ++ detail
  | .custom words => words

/-! ## Reporting -/

/-- A failure as it is reported. -/
def report : CommandError → Report
  | .run e => e.report
  | .config e => { text := "Configuration error: " ++ e.message }
  | e => { text := e.message }

/-! ## Telling more -/

/-- Names the file of a failed disk operation.  Any other failure stays as it is. -/
def withPath (path : Path) : CommandError → CommandError
  | .disk fault =>
    if fault.isNotFound then .fileNotFound path
    else .custom (path.toString ++ ": " ++ fault.message)
  | e => e

/-- Adds advice at the end. -/
def withHint (hint : String) (e : CommandError) : CommandError := .custom (hinted e.message hint)

/-- Says in front what was being done. -/
def context (doing : String) (e : CommandError) : CommandError :=
  .custom (doing ++ ": " ++ e.message)

end CommandError

end ImportPaths
