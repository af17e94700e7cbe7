import ImportPaths.Command.Job
import ImportPaths.Config.Layers
import ImportPaths.Config.Validation

/-!
# From arguments to settings

What every command that runs over a tree does first: find the configuration, check it, and anchor
its directories.  Nothing is written before this has gone well.
-/

namespace ImportPaths

open CommandLine (ConfigArgs)

/-- A path as it is shown from the directory `cwd`. -/
def displayPath (p cwd : Path) : Path := (p.relativeTo? cwd).getD p

/-- The configuration file to be read, if there is one.  A file that was asked for must be there. -/
def configFile (d : Disk) (args : ConfigArgs) (cwd : Path) : Except ConfigError (Option Path) :=
  match args.config with
  | some p =>
    let p := cwd.join p
    if d.isFile p then .ok (some p) else .error (.notFound p)
  | none =>
    let p := cwd.join ⟨CommandLine.configFileName⟩
    .ok (if d.isFile p then some p else none)

/-- The members of the configuration file. -/
def fileMembers (d : Disk) (p : Path) : Except ConfigError (List (List Char × Json.Value)) :=
  match d.readText p with
  | .error fault => .error (.load fault.message)
  | .ok text =>
    match Config.fileMembers? text with
    | some ms => .ok ms
    | none => .error (.load (p.toString ++ " is no JSON object"))

/-- The configuration made of all its layers. -/
def loadConfig (env : Environment) (args : ConfigArgs) (cwd : Path) : Job Config := do
  let d ← Job.disk
  let members ←
    match ← Job.check ((configFile d args cwd).mapError .config) with
    | none => pure []
    | some p => do
      Job.log ⟨.layers, .debug, "loading config file", [("config", toString p)]⟩
      Job.check ((fileMembers d p).mapError .config)
  match Config.ofLayers? members env args with
  | some c => pure c
  | none => throw (.config (.load "a field is unknown or has a value of the wrong type"))

/-- Checks that both roots are directories. -/
def checkRoots (d : Disk) (s : Settings) : Except CommandError Unit :=
  if !d.isDir s.projectRoot then
    .error (.config (.invalidValue "projectRoot" s.projectRoot.toString
      "The project root must be an existing directory; pass --project-root <DIR>"))
  else if !d.isDir s.scanRoot then .error (.run (.scanRootNotFound s.scanRoot))
  else .ok ()

/-- The settings that some arguments ask for in the directory `cwd`. -/
def prepare (env : Environment) (args : ConfigArgs) (cwd : Path) : Job Settings := do
  let c ← loadConfig env args cwd
  Job.check (c.check.mapError .config)
  let s := c.toSettings cwd
  Job.check (checkRoots (← Job.disk) s)
  Job.check (s.check.mapError .run)
  if s.isOutsideProject then
    Job.status .warning ("Scan root " ++ toString (displayPath s.scanRoot cwd) ++
      " is outside the project root " ++ toString (displayPath s.projectRoot cwd) ++
      "; relative specifiers there cannot become alias-rooted")
  return s

end ImportPaths
