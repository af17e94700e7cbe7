import ImportPaths.Proofs.Path.Absolute
import ImportPaths.Proofs.Specifier.Translation
import ImportPaths.Settings

/-!
# Anchored roots

An absolute path has one canonical text: the root alone, or the root and plain segments with one
slash between each two of them.  Cleaning an absolute path writes this text (`isCanonical_clean`),
and leaves it alone where it is already written (`IsCanonical.clean_eq`).

A path is anchored by joining it to a directory and cleaning the result, so only the place of that
directory matters (`anchor_clean`), and none at all where the path is absolute
(`anchor_of_isAbsolute`).  Both roots of anchored settings are canonical, and anchoring them again
changes nothing (`Settings.anchored_canonical`).
-/

namespace ImportPaths

namespace Path

variable {p cwd : Path}

/-! ## Canonical texts -/

/-- The text of `p` is the root alone, or the root and plain segments. -/
def IsCanonical (p : Path) : Prop :=
  p.chars = ['/'] ∨ ∃ subpath, p.chars = '/' :: subpath ∧ isPlainSubpath subpath = true

theorem isCanonical_iff :
    p.IsCanonical ↔ ∃ names : List Segment, (∀ s ∈ names, IsName s) ∧
      p = ofComponents (.root :: names.map .name) := by
  have hwritten (names : List Segment) :
      ofComponents (.root :: names.map .name) = ⟨'/' :: joinSegments names⟩ := by
    rw [ofComponents, List.map_map]
    exact congrArg (fun segments => Path.mk ('/' :: joinSegments segments)) (List.map_id names)
  obtain ⟨chars⟩ := p
  simp only [IsCanonical, hwritten, Path.mk.injEq]
  constructor
  · rintro (rfl | ⟨subpath, rfl, hplain⟩)
    · exact ⟨[], by simp, rfl⟩
    · obtain ⟨names, -, hnames, rfl⟩ := isPlainSubpath_iff.1 hplain
      exact ⟨names, hnames, rfl⟩
  · rintro ⟨names, hnames, rfl⟩
    by_cases hne : names = []
    · left
      rw [hne]
      rfl
    · right
      exact ⟨_, rfl, isPlainSubpath_iff.2 ⟨names, hne, hnames, rfl⟩⟩

theorem IsCanonical.isAbsolute (h : p.IsCanonical) : p.isAbsolute = true := by
  rcases h with h | ⟨subpath, h, -⟩ <;> rw [Path.isAbsolute, h] <;> rfl

/-- Cleaning writes the canonical text of an absolute path, -/
theorem isCanonical_clean (h : p.isAbsolute = true) : p.clean.IsCanonical := by
  obtain ⟨names, hnames, hcollapse⟩ := collapse_of_isAbsolute h
  refine isCanonical_iff.2 ⟨names, hnames, ?_⟩
  rw [clean, hcollapse]

/-- and leaves it alone. -/
theorem IsCanonical.clean_eq (h : p.IsCanonical) : p.clean = p := by
  obtain ⟨names, hnames, rfl⟩ := isCanonical_iff.1 h
  have hsteps : ∀ k ∈ names.map Component.name, IsStep k :=
    List.forall_mem_map.2 fun s hs => isStep_name.2 (hnames s hs)
  have hcollapse : collapse (.root :: names.map .name) = .root :: names.map .name :=
    collapse_append_names [.root] names
  rw [clean, components_ofComponents_root hsteps, hcollapse]

/-! ## Seen from a directory -/

/-- An absolute path is the same from everywhere. -/
theorem anchor_of_isAbsolute (h : p.isAbsolute = true) (cwd : Path) : p.anchor cwd = p.clean := by
  rw [anchor, join, if_pos (by simp [h])]

theorem IsCanonical.anchor_eq (h : p.IsCanonical) (cwd : Path) : p.anchor cwd = p := by
  rw [anchor_of_isAbsolute h.isAbsolute, h.clean_eq]

theorem isCanonical_anchor (p : Path) (h : cwd.isAbsolute = true) : (p.anchor cwd).IsCanonical :=
  isCanonical_clean (isAbsolute_join h p)

/-- The directory may be cleaned first, -/
theorem anchor_clean (p cwd : Path) : p.anchor cwd.clean = p.anchor cwd := by
  cases h : p.isAbsolute with
  | true => rw [anchor_of_isAbsolute h, anchor_of_isAbsolute h]
  | false =>
    refine clean_congr ?_
    rw [collapse_join h, collapse_join h]
    exact collapse_append_congr (collapse_components_clean cwd) _

/-- and the path may be joined to it first. -/
theorem anchor_join (p : Path) (h : cwd.isAbsolute = true) (dir : Path) :
    (cwd.join p).anchor dir = p.anchor cwd :=
  anchor_of_isAbsolute (isAbsolute_join h p) dir

end Path

/-! ## Settings -/

namespace Settings

open ImportPaths.Path

/-- From an absolute directory both roots of anchored settings are absolute paths in their canonical
text, and nothing else of the settings changes.  They stay as they are when they are anchored again,
from anywhere.  It makes no difference whether the roots were joined to the directory before, which
makes them absolute, nor whether the directory was cleaned before. -/
theorem anchored_canonical (s : Settings) {cwd : Path} (h : cwd.isAbsolute = true) :
    ((s.anchored cwd).scanRoot.isAbsolute = true ∧
      (s.anchored cwd).projectRoot.isAbsolute = true) ∧
    ((s.anchored cwd).scanRoot.IsCanonical ∧ (s.anchored cwd).projectRoot.IsCanonical) ∧
    (∀ dir, (s.anchored cwd).anchored dir = s.anchored cwd) ∧
    ((cwd.join s.scanRoot).isAbsolute = true ∧ (cwd.join s.projectRoot).isAbsolute = true ∧
      ∀ dir, ({ s with scanRoot := cwd.join s.scanRoot,
                       projectRoot := cwd.join s.projectRoot } : Settings).anchored dir =
        s.anchored cwd) ∧
    s.anchored cwd.clean = s.anchored cwd ∧
    (s.anchored cwd).extensions = s.extensions ∧ (s.anchored cwd).token = s.token := by
  have hscan := isCanonical_anchor s.scanRoot h
  have hproject := isCanonical_anchor s.projectRoot h
  refine ⟨⟨hscan.isAbsolute, hproject.isAbsolute⟩, ⟨hscan, hproject⟩, ?_, ?_, ?_, rfl, rfl⟩
  · intro dir
    simp only [anchored, hscan.anchor_eq, hproject.anchor_eq]
  · refine ⟨isAbsolute_join h _, isAbsolute_join h _, ?_⟩
    intro dir
    simp only [anchored, anchor_join _ h]
  · simp only [anchored, anchor_clean]

/-- A root with doubled slashes and dots in it, and one that climbs past the root of all paths, from
a directory that is not clean. -/
theorem anchored_canonical_past_root :
    let s : Settings := { scanRoot := .ofString "../x//./y/", projectRoot := .ofString "../../.." }
    let cwd := Path.ofString "/a/./b/../c//"
    cwd.isAbsolute = true ∧
      (s.anchored cwd).scanRoot = .ofString "/a/x/y" ∧
      (s.anchored cwd).projectRoot = .ofString "/" ∧
      (s.anchored cwd).scanRoot.IsCanonical ∧ (s.anchored cwd).projectRoot.IsCanonical ∧
      ∀ dir, (s.anchored cwd).anchored dir = s.anchored cwd := by
  intro s cwd
  have hcwd : cwd.isAbsolute = true := by decide
  obtain ⟨-, ⟨hscan, hproject⟩, hagain, -⟩ := anchored_canonical s hcwd
  exact ⟨hcwd, by decide, by decide, hscan, hproject, hagain⟩

end Settings

end ImportPaths
