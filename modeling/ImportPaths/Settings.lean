import ImportPaths.Path.Clean
import ImportPaths.Run.Error
import ImportPaths.Token.Extension

/-!
# What a run works with

`scanRoot` is the directory whose files are looked at, `projectRoot` the one the alias token stands
for; either may contain the other, or neither.  Settings are `anchored` before a run, so that every
path that is compared starts at the root and is clean.
-/

namespace ImportPaths

/-- What a run works with. -/
structure Settings where
  scanRoot : Path := ⟨['a', 'p', 'p']⟩
  /-- Extensions without their leading dot. -/
  extensions : List (List Char) := [['t', 's'], ['t', 's', 'x']]
  /-- The alias token, without a slash. -/
  token : List Char := ['@']
  projectRoot : Path := ⟨['.']⟩
deriving DecidableEq, Inhabited

namespace Settings

/-- The settings with other extensions; what is empty without dots and blanks is dropped. -/
def withExtensions (s : Settings) (extensions : List (List Char)) : Settings :=
  { s with extensions := (extensions.map Extension.normalize).filter (!·.isEmpty) }

/-- The settings with another alias token. -/
def withToken (s : Settings) (token : List Char) : Settings :=
  { s with token := AliasToken.normalize token }

/-- The settings with both roots as seen from `cwd`. -/
def anchored (s : Settings) (cwd : Path) : Settings :=
  { s with scanRoot := s.scanRoot.anchor cwd, projectRoot := s.projectRoot.anchor cwd }

/-- Checks that a run with these settings can do something. -/
def check (s : Settings) : Except RunError Unit :=
  if s.extensions.isEmpty then .error .noExtensions else AliasToken.check s.token

/-- Whether a file is looked at, by its extension. -/
def selects (s : Settings) (p : Path) : Bool := p.extension?.any (s.extensions.contains ·)

/-- Whether no file under the scan root lies under the project root by its path. -/
def isOutsideProject (s : Settings) : Bool := !s.scanRoot.startsWith s.projectRoot

end Settings

end ImportPaths
