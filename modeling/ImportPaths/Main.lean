import ImportPaths.Command.Program
import ImportPaths.CommandLine.Usage
import ImportPaths.Disk.Edit
import ImportPaths.Terminal.Duration

/-!
# The command line

The part of the disk that a command is about is read, the command is carried out on it, and what
changed is written back.
-/

namespace ImportPaths.Main

open CommandLine (Command Invocation UsageError)

/-! ## Reading the disk -/

/-- The tree at a path.  Directories that no run goes into are left empty, and links lead to where
they really lead. -/
partial def readNode (path : String) : IO Node := do
  let entries ← (← IO.FS.realPath path).readDir
  let nodes ← entries.toList.mapM fun e => do
    let name := e.fileName.toList
    let node : Node ← match (← e.path.symlinkMetadata).type with
      | .dir => if isSkippedName name then pure (.directory []) else readNode e.path.toString
      | .file => pure (.file (← IO.FS.readBinFile e.path))
      | _ => pure (.link (Path.ofString (← IO.FS.realPath e.path).toString))
    return (name, node)
  return .directory nodes

/-- The disk with the tree of a directory read in, if there is such a directory. -/
def readTree (d : Disk) (p : Path) : IO Disk := do
  let read : IO (Option Node) := try return some (← readNode p.toString) catch _ => return none
  match ← read with
  | none => return d
  | some node =>
    let d := d.makeDirs p
    match d.resolve p with
    | .ok (.found spot) => return { d with root := d.root.put spot.place node }
    | _ => return d

/-- The disk as far as it matters to a command. -/
def readDisk (env : Environment) (cwd : Path) (c : Command) : IO Disk := do
  let standing (d : Disk) : Disk := (d.makeDirs cwd).changeDir cwd
  let named : List Path := match c with
    | .convert _ args _ | .check args =>
      (args.config.map fun p => (cwd.join p).clean.directory).toList
    | .init _ => []
  let d ← (cwd :: named).foldlM readTree {}
  (directoriesOf env (standing d) cwd c).foldlM readTree (standing d)

/-- Writes every file that is not as it was. -/
def writeChanges (before after : Disk) : IO Unit := do
  for (place, node) in after.root.leaves [] do
    if let .file bytes := node then
      let same := match before.root.get? place with
        | some (.file old) => old == bytes
        | _ => false
      unless same do
        IO.FS.writeBinFile (toString (Path.ofComponents (.root :: place.map .name))) bytes

/-! ## The environment -/

/-- The names of the variables that are looked at. -/
def variableNames : List String :=
  ["NO_COLOR", "FORCE_COLOR", "RUST_LOG"] ++ Terminal.colorVariables ++
    Field.all.map fun f => String.ofList (f.variableName.map Char.toUpper)

def readEnvironment : IO Environment := do
  let values ← variableNames.mapM fun name => do
    return (← IO.getEnv name).map fun v => (name.toList, v.toList)
  return values.filterMap id

/-! ## Showing -/

def showLine : Terminal.Line → IO Unit
  | .out s => IO.println s
  | .err s => IO.eprintln s

def showUsage (e : UsageError) : IO UInt32 :=
  match e with
  | .versionWanted => do IO.print CommandLine.version; return 0
  | .helpWanted => do IO.print CommandLine.usageText; return 0
  | e => do IO.eprintln ("error: " ++ e.message); return 2

def showFailure (e : CommandError) : IO UInt32 := do
  IO.eprintln "Error:"
  IO.eprintln ("  × " ++ e.report.text)
  if let some help := e.report.help then IO.eprintln ("  help: " ++ help)
  return 1

/-- The time since `start`. -/
def since (start : Nat) : IO Terminal.Duration := do
  let nanos := (← IO.monoNanosNow) - start
  return ⟨nanos / 1000000000, nanos % 1000000000⟩

/-- Carries out a command line that says what to do. -/
def carryOut (i : Invocation) : IO UInt32 := do
  let start ← IO.monoNanosNow
  let env ← readEnvironment
  let cwd := Path.ofString (← IO.currentDir).toString
  let before ← readDisk env cwd i.command
  let (result, desk) := (execute env i.command).perform before
  writeChanges before desk.disk
  let elapsed := (← since start).text
  let look := lookOf env i (← (← IO.getStderr).isTty) elapsed elapsed
  for n in desk.notices do
    (n.lines look).forM showLine
  match result with
  | .ok _ => return 0
  | .error e => showFailure e

end ImportPaths.Main

/-- The program: reads its arguments and gives its exit code. -/
def main (args : List String) : IO UInt32 :=
  match ImportPaths.CommandLine.parse (args.map String.toList) with
  | .error e => ImportPaths.Main.showUsage e
  | .ok i => ImportPaths.Main.carryOut i
