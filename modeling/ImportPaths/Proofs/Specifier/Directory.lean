import ImportPaths.Proofs.Path.Canonical
import ImportPaths.Source.Pass

/-!
# The importing directory

A specifier is understood in the directory of the file that holds it, and that directory may be
written in many ways.  What a relative specifier leads to is the specifier, as a path, seen from the
directory (`Path.anchor`), so that only the place of the directory counts: both translations answer
the same when it is cleaned first (`aliasSubpath?_clean`, `relativeSpecifier?_clean`), and so does a
whole pass (`Settings.pass_of_clean_eq`).

Nothing less than the place would do: the empty specifier names it (`resolveRelative_nil`).
-/

namespace ImportPaths

open ImportPaths.Path

variable {dir dir' : Path}

/-- A directory may be cleaned before a specifier is joined to it, -/
theorem resolveRelative_clean (dir : Path) (relative : List Char) :
    resolveRelative dir.clean relative = resolveRelative dir relative :=
  anchor_clean ⟨relative⟩ dir

/-- and is itself what the empty specifier names. -/
theorem resolveRelative_nil (dir : Path) : resolveRelative dir [] = dir.clean := by
  refine clean_congr ?_
  rw [collapse_join rfl, steps_nil, List.append_nil]

theorem aliasSubpath?_clean (dir : Path) (relative : List Char) (root : Path) :
    aliasSubpath? dir.clean relative root = aliasSubpath? dir relative root := by
  rw [aliasSubpath?, aliasSubpath?, resolveRelative_clean]

theorem relativeSpecifier?_clean (dir : Path) (subpath : List Char) (root : Path) :
    relativeSpecifier? dir.clean subpath root = relativeSpecifier? dir subpath root := by
  rw [relativeSpecifier?, relativeSpecifier?, clean_clean]

/-- Two directories are one place exactly when they resolve every specifier alike. -/
theorem clean_eq_iff_resolveRelative : dir.clean = dir'.clean ↔
    ∀ relative, resolveRelative dir relative = resolveRelative dir' relative := by
  constructor
  · intro h relative
    rw [← resolveRelative_clean, h, resolveRelative_clean]
  · intro h
    rw [← resolveRelative_nil, h, resolveRelative_nil]

/-- Neither where a specifier leads nor how it is translated depends on how the importing directory
is written, only on the place it cleans to; and that place can be told from where specifiers lead. -/
theorem translation_by_clean_directory (dir : Path) (relative subpath : List Char) (root : Path) :
    resolveRelative dir.clean relative = resolveRelative dir relative ∧
    aliasSubpath? dir.clean relative root = aliasSubpath? dir relative root ∧
    relativeSpecifier? dir.clean subpath root = relativeSpecifier? dir subpath root ∧
    ∀ dir' : Path, dir.clean = dir'.clean ↔
      ∀ body, resolveRelative dir body = resolveRelative dir' body := by
  refine ⟨resolveRelative_clean dir relative, aliasSubpath?_clean dir relative root,
    relativeSpecifier?_clean dir subpath root, ?_⟩
  intro dir'
  exact clean_eq_iff_resolveRelative

/-- A directory past the root and back, one above where one stands, and one with idle segments. -/
example :
    resolveRelative (.ofString "/../a//b/../c/.") "../x".toList = .ofString "/a/x" ∧
    aliasSubpath? (.ofString "./a/../..") "./x".toList (.ofString "..") = some "x".toList ∧
    relativeSpecifier? (.ofString "/p//a/../b/.") "b/x".toList (.ofString "/p") =
      some "./x".toList := by decide

/-! ## Passes -/

namespace Settings

theorem otherForm?_clean (s : Settings) (dir : Path) (i : Import) :
    s.otherForm? dir.clean i = s.otherForm? dir i := by
  simp only [otherForm?, relativeSpecifier?_clean, aliasSubpath?_clean]

theorem judge_clean (s : Settings) (d : Direction) (dir : Path) (i : Import) :
    s.judge d dir.clean i = s.judge d dir i := by
  rw [judge, judge, otherForm?_clean]

/-- A pass makes the same of a text in two files whose directories are one place. -/
theorem pass_of_clean_eq {path path' : Path} (h : path.directory.clean = path'.directory.clean)
    (s : Settings) (d : Direction) (text : List Char) : s.pass d path text = s.pass d path' text := by
  have hjudge : s.judge d path.directory = s.judge d path'.directory := by
    funext i
    rw [← judge_clean, h, judge_clean]
  rw [pass, pass, hjudge]

end Settings

end ImportPaths
