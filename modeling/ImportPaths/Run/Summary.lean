import ImportPaths.Path.Basic

/-!
# What a run reports
-/

namespace ImportPaths

/-- The counters of a run. -/
structure Summary where
  /-- Files with a matching extension. -/
  scanned : Nat := 0
  /-- Files that hold a mark of the direction, and so were read through. -/
  visited : Nat := 0
  /-- Files whose content changed. -/
  changed : Nat := 0
  /-- Specifiers that were replaced. -/
  replaced : Nat := 0
  /-- Specifiers that could not be expressed the other way. -/
  unresolved : Nat := 0
deriving DecidableEq, Inhabited

/-- A file whose content changed. -/
structure Change where
  path : Path
  replaced : Nat
  /-- Whether the new content was kept from the disk. -/
  dryRun : Bool
deriving DecidableEq, Inhabited

end ImportPaths
