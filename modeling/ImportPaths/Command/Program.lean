import ImportPaths.Command.Check
import ImportPaths.Command.Convert
import ImportPaths.Command.Init
import ImportPaths.Terminal.ColorSupport

/-!
# The program

From a command line, an environment and a disk to what is written, what is shown, and the exit
code: 0 when all went well, 1 when a command failed, 2 when the command line is none.
-/

namespace ImportPaths

open CommandLine (Command Invocation UsageError)
open Terminal (ColorWish Line Look Notice)

/-- What a command that went well has to say. -/
inductive Answer where
  | converted (summary : Summary)
  | previews (summaries : List (Direction × Summary))
  | written (path : Path)
deriving DecidableEq, Inhabited

/-- Carries out a command. -/
def execute (env : Environment) : Command → Job Answer
  | .convert direction args dryRun => return .converted (← convert env direction args dryRun)
  | .check args => return .previews (← checkCommand env args)
  | .init args => return .written (← initCommand args)

/-- The value of an environment variable. -/
def Environment.get? (env : Environment) (name : String) : Option (List Char) :=
  env.lookup name.toList

/-- What the environment says about colours. -/
def Environment.colorWish (env : Environment) : ColorWish :=
  ⟨(env.get? "NO_COLOR").isSome, (env.get? "FORCE_COLOR").isSome⟩

/-- Whether the output of a program is in colour, and goes to a terminal or not. -/
def usesColors (env : Environment) (i : Invocation) (isTerminal : Bool) : Bool :=
  env.colorWish.granted (Terminal.showsColors env.get? isTerminal) && !i.noColor

/-- How the notices of a program are shown, with `time` and `elapsed` for what the clock says. -/
def lookOf (env : Environment) (i : Invocation) (isTerminal : Bool) (time elapsed : String) :
    Look where
  colors := usesColors env i isTerminal
  filter := Terminal.chooseFilter i.verbose i.quiet (env.get? "RUST_LOG")
  time := time
  elapsed := elapsed

/-- What a program leaves behind. -/
structure Exit where
  disk : Disk
  code : Nat
  lines : List Line

/-- The exit of a command line that is not carried out: to ask for the version or for help is no
mistake. -/
def usageExit (d : Disk) : UsageError → Exit
  | .versionWanted => ⟨d, 0, [.out "reroot 0.1.0"]⟩
  | .helpWanted => ⟨d, 0, []⟩
  | _ => ⟨d, 2, []⟩

/-- Runs the program away from any terminal, up to the report of a failure. -/
def runProgram (env : Environment) (d : Disk) (args : List (List Char)) (time elapsed : String) :
    Exit :=
  match CommandLine.parse args with
  | .error usage => usageExit d usage
  | .ok i =>
    let (result, desk) := (execute env i.command).perform d
    { disk := desk.disk
      code := if result.isOk then 0 else 1
      lines := desk.notices.flatMap (Notice.lines (lookOf env i false time elapsed)) }

/-- The directories that a command is about, as far as a disk tells. -/
def directoriesOf (env : Environment) (d : Disk) (cwd : Path) : Command → List Path
  | .convert _ args _ | .check args =>
    match ((loadConfig env args cwd).perform d).1 with
    | .ok c => [(c.toSettings cwd).scanRoot, (c.toSettings cwd).projectRoot]
    | .error _ => []
  | .init args => [(cwd.join args.path).directory]

end ImportPaths
