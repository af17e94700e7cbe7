import ImportPaths.Path.Basic

/-!
# Trees of files

A tree is a file, a link, or a directory of named trees.  A place in a tree is the list of names
that leads to it, and nothing else: `.`, `..` and links are a matter of paths.
-/

namespace ImportPaths

/-- What can stand under a name. -/
inductive Node where
  | file (bytes : ByteArray)
  /-- A link to wherever its path leads, seen from the directory it stands in. -/
  | link (target : Path)
  | directory (entries : List (Segment × Node))

instance : Inhabited Node := ⟨.directory []⟩

/-- The names that lead to a node from the top. -/
abbrev Place := List Segment

namespace Node

def isDirectory : Node → Bool
  | .directory _ => true
  | _ => false

def isFile : Node → Bool
  | .file _ => true
  | _ => false

/-- What stands under a name of a directory. -/
def child? (name : Segment) : Node → Option Node
  | .directory entries => entries.lookup name
  | _ => none

/-- What stands at a place. -/
def get? (node : Node) : Place → Option Node
  | [] => some node
  | name :: place => (node.child? name).bind (·.get? place)

/-- The entries of a directory after a name is given another node, or is given one at all. -/
def setEntry (name : Segment) (node : Node) : List (Segment × Node) → List (Segment × Node)
  | [] => [(name, node)]
  | e :: entries => if e.1 = name then (name, node) :: entries else e :: setEntry name node entries

/-- The tree with `new` at a place.  Where a directory on the way is missing, nothing changes. -/
def put (node : Node) (place : Place) (new : Node) : Node :=
  match place, node with
  | [], _ => new
  | name :: place, .directory entries =>
    match place, entries.lookup name with
    | [], _ => .directory (setEntry name new entries)
    | place, some child => .directory (setEntry name (child.put place new) entries)
    | _, none => node
  | _, _ => node

/-- The tree without what stands at a place. -/
def erase (node : Node) (place : Place) : Node :=
  match place, node with
  | [name], .directory entries => .directory (entries.filter (·.1 != name))
  | name :: place, .directory entries =>
    match entries.lookup name with
    | some child => .directory (setEntry name (child.erase place) entries)
    | none => node
  | _, _ => node

/-! ## Listing -/

mutual

/-- Every file and link of a tree, with the place at which it stands, below `place`. -/
def leaves (place : Place) : Node → List (Place × Node)
  | .directory entries => leavesOf place entries
  | node => [(place, node)]

def leavesOf (place : Place) : List (Segment × Node) → List (Place × Node)
  | [] => []
  | (name, node) :: entries => node.leaves (place ++ [name]) ++ leavesOf place entries

end

end Node

end ImportPaths
