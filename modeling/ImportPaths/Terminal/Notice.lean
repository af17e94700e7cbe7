import ImportPaths.Terminal.LogFilter
import ImportPaths.Terminal.Report

/-!
# Notices

What a command has to tell, in order, before it is known how it will be shown.  How it is shown
depends on colours, on which records of the log are wanted, and on the clock.
-/

namespace ImportPaths.Terminal

/-- Something a command tells. -/
inductive Notice where
  | status (tone : Tone) (message : String)
  | change (path : Path) (replaced : Nat) (dryRun : Bool)
  | summary (s : Summary) (dryRun : Bool)
  | log (record : LogRecord)
deriving DecidableEq, Inhabited

/-- How notices are shown. -/
structure Look where
  colors : Bool := false
  filter : LogFilter := []
  /-- What is written for the time of a record. -/
  time : String := ""
  /-- What is written for the length of a run. -/
  elapsed : String := ""

/-- The lines of a notice. -/
def Notice.lines (look : Look) : Notice → List Line
  | .status tone message => [.err (statusLine look.colors tone message)]
  | .change path replaced dryRun => [.out (changeLine look.colors path replaced dryRun)]
  | .summary s dryRun => summaryLines look.colors s dryRun look.elapsed
  | .log record => if look.filter.admits record then [.err (record.line look.time)] else []

end ImportPaths.Terminal
