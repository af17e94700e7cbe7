/-!
# Flags of patterns

Letters after `(?` put flags on, and those after a dash take them off.  They hold from there to the
end of the group.
-/

namespace ImportPaths.Text.Pattern

/-- A change of flags. -/
structure Flags where
  /-- The flags that are put on. -/
  on : List Char := []
  /-- The flags that are taken off. -/
  off : List Char := []
deriving DecidableEq, Inhabited

namespace Flags

/-- What becomes of a flag. -/
def apply (f : Flags) (flag : Char) (old : Bool) : Bool :=
  f.on.contains flag || (old && !f.off.contains flag)

/-- The letters of the flags: for any case, many lines, a dot for line ends too, lazy repetition,
characters and not bytes, line ends of two characters, and blanks that are left out. -/
def letters : List Char := "imsUuRx".toList

/-- The letters after `(?` as a change of flags.  None is named twice, and a dash stands in front of
a flag. -/
def ofLetters? (word : List Char) : Option Flags :=
  let check (f : Flags) : Option Flags :=
    if (f.on ++ f.off).all letters.contains ∧ (f.on ++ f.off).Nodup then some f else none
  match word.splitOn '-' with
  | [on] => check { on }
  | [on, off] => if off.isEmpty then none else check { on, off }
  | _ => none

end Flags

/-- What the flags say about the characters of a stretch. -/
structure Mode where
  /-- Letters stand for both of their cases. -/
  anyCase : Bool := false
  /-- Characters are meant, and not bytes. -/
  unicode : Bool := true
deriving DecidableEq, Inhabited

/-- The mode after a change of flags. -/
def Mode.change (m : Mode) (f : Flags) : Mode where
  anyCase := f.apply 'i' m.anyCase
  unicode := f.apply 'u' m.unicode

end ImportPaths.Text.Pattern
