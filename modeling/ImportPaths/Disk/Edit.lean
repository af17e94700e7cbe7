import ImportPaths.Disk.Basic

/-!
# Laying out a disk

How a tree of files is set up and looked at as a whole, which no run does.
-/

namespace ImportPaths.Disk

/-- The directory at a place, with every directory on the way to it, made where it is missing. -/
def makeDirs (d : Disk) (p : Path) : Disk :=
  (p.components.foldl (fun (d, front) c =>
    let p : Path := front.join ⟨match c with
      | .root => ['/']
      | c => c.segment⟩
    match d.resolve p with
    | .ok (.absent dir name) =>
      ({ d with root := d.root.put (dir ++ [name]) (.directory []) }, p)
    | _ => (d, p)) (d, (⟨[]⟩ : Path))).1

/-- The disk with some bytes in the file that a path leads to. -/
def writeBytes (d : Disk) (p : Path) (bytes : ByteArray) : Except DiskFault Disk :=
  (d.writePlace p).map fun place => { d with root := d.root.put place (.file bytes) }

/-- The place of what a path names, without following a link at its end. -/
def entryPlace? (d : Disk) (p : Path) : Option Place :=
  match p.fileName? with
  | none => none
  | some name =>
    match d.resolve ((p.parent?.getD ⟨[]⟩).join ⟨['.']⟩) with
    | .ok (.found dir) => if dir.gone = 0 then some (dir.place ++ [name]) else none
    | _ => none

/-- The disk with a link at a path. -/
def makeLink (d : Disk) (p target : Path) : Disk :=
  match d.entryPlace? p with
  | some place => { d with root := d.root.put place (.link target) }
  | none => d

/-- Where one stands after everything at a place and below it was removed. -/
def standAfterRemoval (place : Place) (s : Spot) : Spot :=
  if place.isPrefixOf s.place then
    ⟨place.dropLast, s.gone + (s.place.length - place.length) + 1⟩
  else s

/-- The disk without what a path names; a link is removed, not what it leads to. -/
def remove (d : Disk) (p : Path) : Disk :=
  match d.entryPlace? p with
  | some place => { root := d.root.erase place, cwd := standAfterRemoval place d.cwd }
  | none => d

/-- Goes to the directory that a path leads to. -/
def changeDir (d : Disk) (p : Path) : Disk :=
  match d.resolve p with
  | .ok (.found spot) => { d with cwd := spot }
  | _ => d

/-- Every file and link below the directory that a path leads to. -/
def leaves (d : Disk) (p : Path) : List (Place × Node) :=
  match d.find? p with
  | some node => node.leaves []
  | none => []

end ImportPaths.Disk
