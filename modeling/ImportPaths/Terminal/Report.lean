import ImportPaths.Run.Summary
import ImportPaths.Terminal.Style

/-!
# What is shown on the terminal

Status lines and counters go to the error stream; the list of changed files and the closing line
go to the output stream.
-/

namespace ImportPaths.Terminal

/-- A line for one of the two streams. -/
inductive Line where
  | out (text : String)
  | err (text : String)
deriving DecidableEq, Inhabited

/-- What a status line says about its message. -/
inductive Tone where
  | success
  | info
  | warning
deriving DecidableEq, Inhabited

/-- A status line.  Only the message of a warning is in colour, beside the symbol. -/
def statusLine (colors : Bool) (tone : Tone) (message : String) : String :=
  match tone with
  | .success => Style.boldGreen.paint colors "✓" ++ " " ++ message
  | .info => Style.boldBlue.paint colors "ℹ" ++ " " ++ message
  | .warning => Style.boldYellow.paint colors "⚠" ++ " " ++ Style.yellow.paint colors message

/-- A number of things, with an `s` unless there is exactly one. -/
def plural (count : Nat) (noun : String) : String :=
  toString count ++ " " ++ noun ++ if count = 1 then "" else "s"

def verb (dryRun : Bool) : String := if dryRun then "Would rewrite" else "Rewrote"

/-- The line on a changed file, shown as `path`. -/
def changeLine (colors : Bool) (path : Path) (replaced : Nat) (dryRun : Bool) : String :=
  verb dryRun ++ " imports in " ++ Style.bold.paint colors path.toString ++ " " ++
    Style.dim.paint colors ("(" ++ plural replaced "specifier" ++ ")")

/-- The closing line of a run. -/
def closingLine (colors : Bool) (s : Summary) (dryRun : Bool) : String :=
  Style.boldGreen.paint colors "✓" ++ " " ++ verb dryRun ++ " imports in " ++
    plural s.changed "file" ++ "."

/-- The counters of a run that took the time `elapsed`. -/
def countersLine (colors : Bool) (s : Summary) (elapsed : String) : String :=
  let left :=
    if s.unresolved = 0 then ""
    else ", left " ++ plural s.unresolved "unresolvable specifier" ++ " untouched"
  "  " ++ Style.dim.paint colors ("scanned " ++ plural s.scanned "file" ++ ", visited " ++
    toString s.visited ++ ", rewrote " ++ plural s.replaced "specifier" ++ left ++ " in " ++
    elapsed)

/-- The lines at the end of a run. -/
def summaryLines (colors : Bool) (s : Summary) (dryRun : Bool) (elapsed : String) : List Line :=
  [.out (closingLine colors s dryRun), .err (countersLine colors s elapsed)]

/-- What is written to the output stream. -/
def stdout (lines : List Line) : String :=
  String.join (lines.map fun
    | .out text => text ++ "\n"
    | .err _ => "")

/-- What is written to the error stream. -/
def stderr (lines : List Line) : String :=
  String.join (lines.map fun
    | .out _ => ""
    | .err text => text ++ "\n")

end ImportPaths.Terminal
