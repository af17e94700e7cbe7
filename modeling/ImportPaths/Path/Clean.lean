import ImportPaths.Path.Basic

/-!
# Clean paths

A path is cleaned by its text alone, without asking any disk: `.` is dropped, `..` takes back the
name before it, and is dropped at the root.  Where there is nothing to take back it stays, so a
clean relative path may start with a run of `..`.  The empty result is written `.`.
-/

namespace ImportPaths.Path

/-- One step of cleaning.  The components so far stand with the last one first. -/
def pushComponent (stack : List Component) : Component → List Component
  | .here => stack
  | .up =>
    match stack with
    | .root :: _ => stack
    | .name _ :: rest => rest
    | _ => .up :: stack
  | c => c :: stack

/-- The components that are left when `.` and `..` are resolved. -/
def collapse (cs : List Component) : List Component := (cs.foldl pushComponent []).reverse

/-- The path with `.` and `..` resolved by its text. -/
def clean (p : Path) : Path :=
  match collapse p.components with
  | [] => ⟨['.']⟩
  | cs => ofComponents cs

/-- `p` as seen from `cwd`, cleaned. -/
def anchor (p cwd : Path) : Path := (cwd.join p).clean

end ImportPaths.Path
