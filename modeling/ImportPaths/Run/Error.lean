import ImportPaths.Disk.Fault
import ImportPaths.Path.Basic
import ImportPaths.Token.Alias

/-!
# Why a run fails

A specifier that cannot be expressed the other way is no failure: it is left alone and counted.
Everything here ends a run, and is shown to the user as a `Report`.
-/

namespace ImportPaths

/-- Why a run over a tree ends early. -/
inductive RunError where
  | read (path : Path) (fault : DiskFault)
  | write (path : Path) (fault : DiskFault)
  /-- The files under the scan root cannot be listed, for a reason told from outside. -/
  | walk (root : Path) (words : String)
  /-- The working directory is not known. -/
  | currentDir (fault : DiskFault)
  | scanRootNotFound (root : Path)
  | invalidAlias (token : List Char) (fault : AliasToken.Fault)
  | noExtensions
deriving DecidableEq, Inhabited

/-- What is shown to the user of a failure. -/
structure Report where
  text : String
  /-- What can be done about it, where there is something to say. -/
  help : Option String := none
deriving DecidableEq, Inhabited

namespace RunError

def message : RunError → String
  | .read path fault => "Failed to read " ++ path.toString ++ ": " ++ fault.message
  | .write path fault => "Failed to write " ++ path.toString ++ ": " ++ fault.message
  | .walk root words => "Failed to walk " ++ root.toString ++ ": " ++ words
  | .currentDir fault => "Failed to determine the current directory: " ++ fault.message
  | .scanRootNotFound root => "Scan root not found: " ++ root.toString
  | .invalidAlias token fault =>
    "Invalid alias prefix '" ++ String.ofList token ++ "': " ++ fault.reason
  | .noExtensions => "No file extensions configured"

/-- A failure as it is reported.  Where there is help to give, the report has a text of its own. -/
def report : RunError → Report
  | .scanRootNotFound root =>
    { text := "Scan root not found: " ++ root.toString
      help := some "Pass --scan-root <DIR> or set \"scanRoot\" in reroot.config.json" }
  | .invalidAlias token fault =>
    { text := "Invalid alias prefix '" ++ String.ofList token ++ "': " ++ fault.reason
      help := some "Use a short token such as '@' or '~' (without the trailing '/')" }
  | .noExtensions =>
    { text := "No file extensions configured"
      help := some "Pass --ext ts,tsx or set \"extensions\" in reroot.config.json" }
  | .write path fault =>
    { text := "Failed to write " ++ path.toString ++ ": " ++ fault.message
      help := some "Files handled before this one keep their new contents; rerunning is safe" }
  | e => { text := e.message }

end RunError

/-- Checks a token against the rules for alias tokens. -/
def AliasToken.check (token : List Char) : Except RunError Unit :=
  match AliasToken.fault? token with
  | some fault => .error (.invalidAlias token fault)
  | none => .ok ()

/-- Reads an alias token as a user writes it. -/
def AliasToken.parse (written : List Char) : Except RunError (List Char) := do
  AliasToken.check (AliasToken.normalize written)
  return AliasToken.normalize written

end ImportPaths
