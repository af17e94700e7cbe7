import ImportPaths.CommandLine.Switch
import ImportPaths.Direction

/-!
# Reading a command line

Arguments are read from left to right.  A value that stands apart from its switch is looked at only
when the next switch is met or the arguments end, so an unknown switch after it is complained about
first.  What stands within a command is settled before what stands in front of it.
-/

namespace ImportPaths.CommandLine

/-! ## What a command line says -/

/-- What a user says on the command line about the configuration. -/
structure ConfigArgs where
  config : Option Path := none
  scanRoot : Option Path := none
  extensions : List (List Char) := []
  token : Option (List Char) := none
  projectRoot : Option Path := none
deriving DecidableEq, Inhabited

/-- Where and how a first configuration is written. -/
structure InitArgs where
  path : Path
  force : Bool := false
  schema : Bool := false
deriving DecidableEq, Inhabited

/-- What is to be done. -/
inductive Command where
  | convert (direction : Direction) (config : ConfigArgs) (dryRun : Bool)
  | check (config : ConfigArgs)
  | init (args : InitArgs)
deriving DecidableEq, Inhabited

/-- A command line that can be carried out. -/
structure Invocation where
  verbose : Bool
  quiet : Bool
  noColor : Bool
  command : Command
deriving DecidableEq, Inhabited

/-! ## One level -/

/-- What has been read of one level. -/
structure Reading where
  /-- The switches that were met, with what was read of their values. -/
  given : List (Switch × List (List Char)) := []
  /-- A switch whose value stands apart from it, and the value once it was met. -/
  pending : Option (Switch × Option (List Char)) := none
  /-- Whether `--` was met, after which nothing is a switch. -/
  closed : Bool := false
deriving Inhabited

namespace Reading

def has (r : Reading) (s : Switch) : Bool := r.given.any (·.1 == s)

/-- The values of a switch, in the order in which they were met. -/
def values (r : Reading) (s : Switch) : List (List Char) :=
  (r.given.filter (·.1 == s)).flatMap Prod.snd

def value? (r : Reading) (s : Switch) : Option (List Char) := (r.values s).head?

def path? (r : Reading) (s : Switch) : Option Path := (r.value? s).map Path.mk

/-- Takes in a switch and its value. -/
def record (r : Reading) (s : Switch) (value : Option (List Char)) : Except UsageError Reading :=
  match s, s.taking, value with
  | .help, _, _ => .error .helpWanted
  | .version, _, _ => .error .versionWanted
  | _, .nothing, _ =>
    if r.has s then .error .conflict else .ok { r with given := r.given ++ [(s, [])] }
  | _, _, none => .error .invalidValue
  | _, taking, some v =>
    if taking ≠ .extensions ∧ r.has s then .error .conflict
    else do
      let vs ← s.read v
      return { r with given := r.given ++ [(s, vs)] }

/-- Takes in the switch that was waiting for its value. -/
def settle (r : Reading) : Except UsageError Reading :=
  match r.pending with
  | none => .ok r
  | some (s, value) => { r with pending := none }.record s value

/-- Takes in a switch that needs nothing more. -/
def meet (r : Reading) (s : Switch) (value : Option (List Char)) : Except UsageError Reading := do
  (← r.settle).record s value

/-- Takes in a switch whose value is the next argument. -/
def await (r : Reading) (s : Switch) : Except UsageError Reading := do
  return { ← r.settle with pending := some (s, none) }

/-- An argument that starts with two dashes: a name, and perhaps a value after `=`. -/
def long (l : Level) (r : Reading) (arg : List Char) : Except UsageError Reading :=
  let name := arg.takeWhile (· != '=')
  let value := (arg.dropWhile (· != '=')).tail?
  match l.ofLong? name with
  | none => .error .unknownArgument
  | some s =>
    match s.taking, value with
    | .nothing, some _ => .error .unwantedValue
    | .nothing, none => r.meet s none
    | _, some v => r.meet s (some v)
    | _, none => r.await s

/-- An argument that starts with one dash: letters, of which the last may take the rest as its
value. -/
def shorts (l : Level) (r : Reading) : List Char → Except UsageError Reading
  | [] => .ok r
  | letter :: rest =>
    match l.ofShort? letter with
    | none => .error .unknownArgument
    | some s =>
      match s.taking, rest with
      | .nothing, _ => do shorts l (← r.meet s none) rest
      | _, [] => r.await s
      | _, '=' :: v => r.meet s (some v)
      | _, v => r.meet s (some v)

/-- An argument that is neither a switch nor a value of one. -/
def stray (l : Level) (r : Reading) (arg : List Char) : UsageError :=
  match l with
  | .within _ => .unknownArgument
  | .top =>
    if r.closed ∧ ((CommandName.ofWord? arg).isSome ∨ arg = "help".toList) then .unknownArgument
    else .unknownCommand

/-- An argument that is not the name of a command. -/
def argument (l : Level) (r : Reading) (arg : List Char) : Except UsageError Reading :=
  if r.closed then .error (stray l r arg)
  else
    match arg, r.pending with
    | ['-', '-'], _ => .ok { r with closed := true }
    | '-' :: '-' :: rest, _ => long l r rest
    | '-' :: c :: rest, _ => shorts l r (c :: rest)
    | _, some (s, none) => .ok { r with pending := some (s, some arg) }
    | _, _ => .error (stray l r arg)

/-- Two switches that may not stand on one level. -/
def checkConflicts (r : Reading) : Except UsageError Unit :=
  if r.has .verbose ∧ r.has .quiet then .error .conflict else .ok ()

end Reading

/-! ## Both levels -/

/-- What is asked about with `help`: the names of commands, one inside the other. -/
def helpOn : List (List Char) → UsageError
  | [] => .helpWanted
  | [w] =>
    if (CommandName.ofWord? w).isSome ∨ w = "help".toList then .helpWanted else .unknownCommand
  | _ => .unknownCommand

/-- Reads what stands within a command. -/
def readWithin (command : CommandName) (args : List (List Char)) : Except UsageError Reading := do
  let r ← args.foldlM (Reading.argument (.within command)) {}
  let r ← r.settle
  r.checkConflicts
  return r

/-- Reads what stands in front of a command, then the command. -/
def readTop (r : Reading) :
    List (List Char) → Except UsageError (Reading × Option (CommandName × Reading))
  | [] => .ok (r, none)
  | arg :: rest =>
    match if r.closed then none else CommandName.ofWord? arg with
    | some command => do return (r, some (command, ← readWithin command rest))
    | none =>
      if !r.closed ∧ arg = "help".toList then .error (helpOn rest)
      else do readTop (← Reading.argument .top r arg) rest

/-- The name of the file a configuration is read from and written to. -/
def configFileName : List Char := "reroot.config.json".toList

def configArgs (r : Reading) : ConfigArgs where
  config := r.path? .config
  scanRoot := r.path? .scanRoot
  extensions := r.values .extensions
  token := r.value? .aliasToken
  projectRoot := r.path? .projectRoot

/-- What a command is to do, by the switches within it. -/
def commandOf (r : Reading) : CommandName → Command
  | .toAlias => .convert .toAlias (configArgs r) (r.has .dryRun)
  | .toRelative => .convert .toRelative (configArgs r) (r.has .dryRun)
  | .check => .check (configArgs r)
  | .init => .init ⟨(r.path? .path).getD ⟨configFileName⟩, r.has .force, r.has .schema⟩

/-- Reads a command line, without the name of the program. -/
def parse (args : List (List Char)) : Except UsageError Invocation := do
  let (top, found) ← readTop {} args
  match found with
  | none => .error (if top.given.isEmpty then .nothingGiven else .missingCommand)
  | some (command, within) =>
    top.checkConflicts
    return {
      verbose := top.has .verbose || within.has .verbose
      quiet := top.has .quiet || within.has .quiet
      noColor := top.has .noColor || within.has .noColor
      command := commandOf within command }

end ImportPaths.CommandLine
