import ImportPaths.Run.Sources
import ImportPaths.Run.Summary
import ImportPaths.Source.Pass

/-!
# A run over a tree

A run reads each of its files, makes the pass over the text, and writes the file where something
changed.  It stops at the first file that cannot be read or written; what was written before stays.
What happens on the way is told as a list of events, in order.
-/

namespace ImportPaths

/-- What a run does. -/
structure Pass where
  settings : Settings
  direction : Direction
  /-- Whether nothing is to be written. -/
  dryRun : Bool := false
deriving DecidableEq, Inhabited

/-- Something that happens in a run. -/
inductive RunEvent where
  | started (pass : Pass)
  /-- A specifier that cannot be expressed the other way is left alone. -/
  | leftAlone (file : Path) (specifier : List Char)
  /-- A file was read through. -/
  | visited (file : Path)
  | changed (change : Change)
  | finished (summary : Summary)
deriving DecidableEq, Inhabited

/-- How something that may fail on the way went: what is on the disk, what happened, and the
outcome. -/
structure Progress (α : Type) where
  disk : Disk
  events : List RunEvent
  result : Except RunError α

namespace Pass

/-! ## One file -/

/-- Writes what came out of a pass over the file at `path`, if anything changed. -/
def commit (p : Pass) (d : Disk) (path : Path) (o : Outcome) : Except RunError Disk :=
  if o.changed && !p.dryRun then (d.writeText path o.content).mapError (.write path)
  else .ok d

/-- Makes the pass over the file at `path`.  A file without a mark of the direction is not read
through, and has no outcome. -/
def convertFile (p : Pass) (d : Disk) (path : Path) : Progress (Option Outcome) :=
  match d.readText path with
  | .error fault => ⟨d, [], .error (.read path fault)⟩
  | .ok text =>
    if hasCandidates p.settings.token p.direction text then
      let o := p.settings.pass p.direction path text
      let events := o.unresolved.map (.leftAlone path)
      match p.commit d path o with
      | .ok d => ⟨d, events, .ok (some o)⟩
      | .error e => ⟨d, events, .error e⟩
    else ⟨d, [], .ok none⟩

/-! ## All files -/

/-- The counters after another file. -/
def count (s : Summary) : Option Outcome → Summary
  | none => { s with scanned := s.scanned + 1 }
  | some o =>
    { scanned := s.scanned + 1
      visited := s.visited + 1
      changed := s.changed + if o.changed then 1 else 0
      replaced := s.replaced + o.replaced
      unresolved := s.unresolved + o.unresolved.length }

/-- What is told about a file after the pass over it. -/
def fileEvents (p : Pass) (path : Path) : Option Outcome → List RunEvent
  | none => []
  | some o =>
    .visited path :: if o.changed then [.changed ⟨path, o.replaced, p.dryRun⟩] else []

/-- Makes the pass over some files, after others with the counters `s`. -/
def convertAll (p : Pass) (d : Disk) (s : Summary) : List Path → Progress Summary
  | [] => ⟨d, [.finished s], .ok s⟩
  | path :: paths =>
    let file := p.convertFile d path
    match file.result with
    | .error e => ⟨file.disk, file.events, .error e⟩
    | .ok o =>
      let rest := p.convertAll file.disk (count s o) paths
      { rest with events := file.events ++ p.fileEvents path o ++ rest.events }

/-- Makes the pass over every file of the settings. -/
def run (p : Pass) (d : Disk) : Progress Summary :=
  match p.settings.sources d with
  | .error e => ⟨d, [.started p], .error e⟩
  | .ok paths =>
    let rest := p.convertAll d {} paths
    { rest with events := .started p :: rest.events }

end Pass

/-- The changes among some events. -/
def changes (events : List RunEvent) : List Change :=
  events.filterMap fun
    | .changed c => some c
    | _ => none

/-- Makes a pass with settings that are checked, and anchored where one stands. -/
def Pass.runHere (p : Pass) (d : Disk) : Progress Summary :=
  match p.settings.check with
  | .error e => ⟨d, [], .error e⟩
  | .ok () =>
    match d.currentDir with
    | .error fault => ⟨d, [], .error (.currentDir fault)⟩
    | .ok cwd => { p with settings := p.settings.anchored cwd }.run d

end ImportPaths
