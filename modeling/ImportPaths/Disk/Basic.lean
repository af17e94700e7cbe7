import ImportPaths.Disk.Fault
import ImportPaths.Disk.Node

/-!
# Disks

A disk is a tree of files and the directory in which one stands, which may have been removed.  A
path leads to a place by walking: `..` goes back from where one really is, links are followed (forty
of them at most), and anything that is not a directory ends the walk unless it is the last step.
-/

namespace ImportPaths

/-- Where one can stand: at a place, or in a directory that was removed, `gone` steps below the
place.  In a removed directory there is nothing and nothing can be made, but `..` leads out of
it. -/
structure Spot where
  place : Place
  gone : Nat := 0
deriving DecidableEq, Inhabited

/-- Where `..` leads to. -/
def Spot.up (s : Spot) : Spot :=
  if s.gone = 0 then { place := s.place.dropLast } else { s with gone := s.gone - 1 }

/-- A tree of files, and the directory in which one stands. -/
structure Disk where
  root : Node := .directory []
  cwd : Spot := { place := [] }
deriving Inhabited

/-- Where a path leads. -/
inductive Target where
  /-- To a file or directory. -/
  | found (spot : Spot)
  /-- To no name of an existing directory. -/
  | absent (dir : Place) (name : Segment)
deriving DecidableEq, Inhabited

/-- What a path is walked for. -/
inductive Purpose where
  /-- To look at what is there. -/
  | look
  /-- To write a file, which need not be there yet. -/
  | write
deriving DecidableEq, Inhabited

namespace Disk

/-- How many links a path may lead through. -/
def maxLinks : Nat := 40

/-- How many bytes a name may have. -/
def maxNameBytes : Nat := 255

/-- How many bytes a path may have. -/
def maxPathBytes : Nat := 4095

/-- Whether nothing but slashes is left of a path, and at least one. -/
def isSlashes (steps : List Segment) : Bool := !steps.isEmpty && steps.all (·.isEmpty)

/-- Walks along the segments of a path.  A name with a slash after it can only be that of a
directory, so no file is written there, whether or not there is one. -/
def walk (root : Node) (purpose : Purpose) (links : Nat) (spot : Spot) (steps : List Segment) :
    Except DiskFault Target :=
  match steps with
  | [] => .ok (.found spot)
  | s :: rest =>
    if Path.isIdle s then walk root purpose links spot rest
    else if s = ['.', '.'] then walk root purpose links spot.up rest
    else if purpose = .write ∧ isSlashes rest then .error .isDirectory
    else if spot.gone ≠ 0 then .error .notFound
    else if maxNameBytes < Text.utf8Size s then .error .nameTooLong
    else
      let place := spot.place ++ [s]
      match root.get? place with
      | none => if rest = [] then .ok (.absent spot.place s) else .error .notFound
      | some (.directory _) => walk root purpose links { place } rest
      | some (.file _) => if rest = [] then .ok (.found { place }) else .error .notDirectory
      | some (.link target) =>
        match links with
        | 0 => .error .tooManyLinks
        | links + 1 =>
          let start := if target.isAbsolute then { place := [] } else spot
          walk root purpose links start (target.chars.splitOn '/' ++ rest)
termination_by (links, steps.length)

/-- Where a path leads.  The empty path leads nowhere. -/
def resolveFor (d : Disk) (purpose : Purpose) (p : Path) : Except DiskFault Target :=
  if p.chars.contains '\x00' then .error .nulInPath
  else if p.chars.isEmpty then .error .notFound
  else if maxPathBytes < Text.utf8Size p.chars then .error .nameTooLong
  else
    let start := if p.isAbsolute then { place := [] } else d.cwd
    walk d.root purpose maxLinks start (p.chars.splitOn '/')

/-- Where a path leads, to look at what is there. -/
def resolve (d : Disk) (p : Path) : Except DiskFault Target := d.resolveFor .look p

/-- What is at a spot; a removed directory is empty. -/
def nodeAt? (d : Disk) (s : Spot) : Option Node :=
  if s.gone = 0 then d.root.get? s.place else some (.directory [])

/-- The file or directory that a path leads to. -/
def find? (d : Disk) (p : Path) : Option Node :=
  match d.resolve p with
  | .ok (.found spot) => d.nodeAt? spot
  | _ => none

def isDir (d : Disk) (p : Path) : Bool := (d.find? p).any Node.isDirectory

def isFile (d : Disk) (p : Path) : Bool := (d.find? p).any Node.isFile

/-- Whether a path leads to anything. -/
def holds (d : Disk) (p : Path) : Bool := (d.find? p).isSome

/-- The path of the directory in which one stands. -/
def currentDir (d : Disk) : Except DiskFault Path :=
  if d.cwd.gone = 0 then .ok (Path.ofComponents (.root :: d.cwd.place.map .name))
  else .error .notFound

/-! ## Reading and writing -/

/-- The text in a file. -/
def readText (d : Disk) (p : Path) : Except DiskFault (List Char) := do
  match ← d.resolve p with
  | .absent _ _ => .error .notFound
  | .found spot =>
    match d.nodeAt? spot with
    | some (.file bytes) =>
      match String.fromUTF8? bytes with
      | some s => .ok s.toList
      | none => .error .notText
    | some (.directory _) => .error .isDirectory
    | _ => .error .notFound

/-- The place at which a file is written. -/
def writePlace (d : Disk) (p : Path) : Except DiskFault Place :=
  match d.resolveFor .write p with
  | .error fault => .error fault
  | .ok (.absent dir name) => .ok (dir ++ [name])
  | .ok (.found spot) =>
    match d.nodeAt? spot with
    | some (.file _) => .ok spot.place
    | _ => .error .isDirectory

/-- The disk with a text in the file that a path leads to; the file need not be there yet. -/
def writeText (d : Disk) (p : Path) (text : List Char) : Except DiskFault Disk :=
  match d.writePlace p with
  | .ok place => .ok { d with root := d.root.put place (.file (String.ofList text).toUTF8) }
  | .error fault => .error fault

end Disk

end ImportPaths
