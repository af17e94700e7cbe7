import ImportPaths.Text.Quoted

/-!
# The log

Records of what the program does, for those who want to follow it.  A record says how important it
is and from which part of the program it comes.
-/

namespace ImportPaths.Terminal

/-- How important a record is, and how much a filter lets through. -/
inductive LogLevel where
  | off
  | error
  | warn
  | info
  | debug
  | trace
deriving DecidableEq, Inhabited

namespace LogLevel

def rank : LogLevel → Nat
  | .off => 0
  | .error => 1
  | .warn => 2
  | .info => 3
  | .debug => 4
  | .trace => 5

/-- The name of a level, as wide as the widest. -/
def label : LogLevel → String
  | .off => "  OFF"
  | .error => "ERROR"
  | .warn => " WARN"
  | .info => " INFO"
  | .debug => "DEBUG"
  | .trace => "TRACE"

def all : List LogLevel := [.off, .error, .warn, .info, .debug, .trace]

/-- The word, in lower case, with which a level is asked for. -/
def word : LogLevel → List Char
  | .off => "off".toList
  | .error => "error".toList
  | .warn => "warn".toList
  | .info => "info".toList
  | .debug => "debug".toList
  | .trace => "trace".toList

/-- The level that a number asks for; a `+` may stand in front of it. -/
def ofNumber? (w : List Char) : Option LogLevel :=
  let ds := match w with
    | '+' :: ds => ds
    | ds => ds
  if !ds.isEmpty && ds.all Char.isDigit then
    let n := ds.foldl (fun n c => n * 10 + (c.toNat - '0'.toNat)) 0
    all.find? (·.rank == n)
  else none

/-- The level that a word asks for, as a number or in letters of either case. -/
def ofWord? (w : List Char) : Option LogLevel :=
  (ofNumber? w).or (all.find? fun l => l.word == w.map Char.toLower)

end LogLevel

/-- The part of the program that a record comes from. -/
inductive LogSource where
  /-- What goes over a tree of files. -/
  | run
  /-- What makes the pass over a text. -/
  | pass
  /-- What puts a configuration together. -/
  | layers
  /-- What carries out a conversion. -/
  | conversion
deriving DecidableEq, Inhabited

/-- The name by which a filter speaks of a part. -/
def LogSource.name : LogSource → List Char
  | .run => "reroot_core::walker".toList
  | .pass => "reroot_core::rewrite".toList
  | .layers => "reroot_cli::config::loading".toList
  | .conversion => "reroot_cli::commands::convert".toList

/-- A record: a text, and named values in order. -/
structure LogRecord where
  source : LogSource
  level : LogLevel
  text : String
  fields : List (String × String) := []
deriving DecidableEq, Inhabited

/-- Whether a record has a field; its text counts as the field `message`. -/
def LogRecord.hasField (r : LogRecord) (name : List Char) : Bool :=
  name == "message".toList || r.fields.any (·.1.toList == name)

/-- A record as a line, after the time at which it was made. -/
def LogRecord.line (r : LogRecord) (time : String) : String :=
  time ++ " " ++ r.level.label ++ " " ++ r.text ++
    String.join (r.fields.map fun f => " " ++ f.1 ++ "=" ++ f.2)

end ImportPaths.Terminal
