import ImportPaths.Command.Error
import ImportPaths.Disk.Basic
import ImportPaths.Run.Tree
import ImportPaths.Terminal.Notice

/-!
# Jobs

A command works on a disk, tells notices as it goes, and may fail; what was written and told before
a failure stays.
-/

namespace ImportPaths

open Terminal (Notice Tone LogRecord)

/-- The environment of a program: names and values, in order. -/
abbrev Environment := List (List Char × List Char)

/-- What a command works on and what it has told. -/
structure Desk where
  disk : Disk
  notices : List Notice := []
deriving Inhabited

/-- Work on a disk that tells notices and may fail. -/
abbrev Job := ExceptT CommandError (StateM Desk)

namespace Job

/-- Does the work on a disk: the outcome, and the desk afterwards. -/
def perform {α : Type} (job : Job α) (d : Disk) : Except CommandError α × Desk :=
  Id.run (StateT.run (ExceptT.run job) ⟨d, []⟩)

/-- Tells a notice. -/
def tell (n : Notice) : Job Unit := modify fun s => { s with notices := s.notices ++ [n] }

def status (tone : Tone) (message : String) : Job Unit := tell (.status tone message)

def log (record : LogRecord) : Job Unit := tell (.log record)

/-- The disk as it is now. -/
def disk : Job Disk := return (← get).disk

/-- Goes on with what came out of a check. -/
def check {α : Type} : Except CommandError α → Job α
  | .ok a => pure a
  | .error e => throw e

/-- The directory in which one stands. -/
def currentDir : Job Path := do
  check ((← disk).currentDir.mapError fun fault =>
    (CommandError.disk fault).context "Failed to get current working directory")

/-- Writes a file. -/
def writeText (p : Path) (text : List Char) : Job Unit := do
  let d ← check (((← disk).writeText p text).mapError fun fault =>
    (CommandError.disk fault).withPath p)
  modify fun s => { s with disk := d }

/-! ## Runs -/

/-- What is told of an event in a run.  Changes are shown as `change` says. -/
def noticesOf (change : Change → List Notice) : RunEvent → List Notice
  | .started p => [.log ⟨.run, .info, "rewriting import specifiers",
      [("scan_root", toString p.settings.scanRoot), ("direction", toString p.direction),
        ("dry_run", toString p.dryRun)]⟩]
  | .leftAlone file specifier => [.log ⟨.pass, .debug, "leaving unresolvable specifier untouched",
      [("file", toString file), ("specifier", Text.quoted specifier)]⟩]
  | .visited file => [.log ⟨.run, .debug, "scanned", [("file", toString file)]⟩]
  | .changed c => change c
  | .finished s => [.log ⟨.run, .info, "done",
      [("changed", toString s.changed), ("visited", toString s.visited),
        ("scanned", toString s.scanned)]⟩]

/-- Makes a run. -/
def runPass (p : Pass) (change : Change → List Notice) : Job Summary := do
  let progress := p.run (← disk)
  modify fun s =>
    { disk := progress.disk
      notices := s.notices ++ progress.events.flatMap (noticesOf change) }
  check (progress.result.mapError .run)

end Job

end ImportPaths
