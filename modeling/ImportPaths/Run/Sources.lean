import ImportPaths.Disk.Basic
import ImportPaths.Settings

/-!
# The files of a run

A run looks at every file below the scan root with one of the extensions.  It does not go into
directories whose name starts with a dot or is `node_modules`, nor through links; the scan root
itself may be any of these.  The entries of a directory come in the order of their names.
-/

namespace ImportPaths

/-- Whether a run leaves a directory with this name alone. -/
def isSkippedName (name : Segment) : Bool :=
  name.head? == some '.' || name == "node_modules".toList

/-- Named things in the order of their names. -/
def sortByName {α : Type} (entries : List (Segment × α)) : List (Segment × α) :=
  entries.mergeSort fun a b => Text.le a.1 b.1

namespace Node

mutual

/-- The files of a tree that stands at `path`, in order. -/
def files (path : Path) : Node → List Path
  | .file _ => [path]
  | .link _ => []
  | .directory entries => (sortByName (filesOf path entries)).flatMap Prod.snd

/-- The files of each entry of the directory at `path`. -/
def filesOf (path : Path) : List (Segment × Node) → List (Segment × List Path)
  | [] => []
  | (name, node) :: entries =>
    if node.isDirectory && isSkippedName name then filesOf path entries
    else (name, node.files (path.join ⟨name⟩)) :: filesOf path entries

end

end Node

/-- The files a run looks at, in order. -/
def Settings.sources (s : Settings) (d : Disk) : Except RunError (List Path) :=
  match d.find? s.scanRoot with
  | some (.directory entries) =>
    .ok ((Node.files s.scanRoot (.directory entries)).filter s.selects)
  | _ => .error (.scanRootNotFound s.scanRoot)

end ImportPaths
