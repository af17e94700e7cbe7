import ImportPaths.Proofs.Disk.Files
import Mathlib.Data.List.Pairwise

/-!
# Disks with revised texts

`d.revise new paths` is the disk `d` after the text of every file that one of `paths` leads to was
given to `new`, together with that path.  What this comes to for someone who reads the disk is said
by `Revised`: the same tree, the revised texts at `paths`, and every other file as it was
(`revised_revise`).  When the paths lead to different places, writing the revised text of one more
file gives the disk revised along one more path (`writeText_revise`).

Where to revise a text twice is to revise it once, the same holds of disks (`revise_revise`), and
also when some files were revised before another one was given a new text
(`revise_overwrite_revise`).
-/

namespace ImportPaths.Disk

variable {d : Disk} {paths front : List Path} {path : Path} {place : Place}
variable {new : Path → List Char → List Char} {text : List Char} {bytes : ByteArray}

/-! ## What is revised how -/

/-- What becomes of the text of the file at a place: it is revised for the first path that leads
there. -/
def reviser (d : Disk) (new : Path → List Char → List Char) (paths : List Path) (place : Place) :
    List Char → List Char :=
  match paths.find? fun path => d.LeadsTo path place with
  | some path => new path
  | none => id

/-- The disk after the texts of the files that some paths lead to were revised. -/
def revise (d : Disk) (new : Path → List Char → List Char) (paths : List Path) : Disk :=
  d.mapFiles fun place => recode (d.reviser new paths place)

theorem reviser_of_forall (h : ∀ path ∈ paths, ¬d.LeadsTo path place) :
    d.reviser new paths place = id := by
  have hnone : paths.find? (fun path => d.LeadsTo path place) = none :=
    List.find?_eq_none.2 fun path hpath => by simpa using h path hpath
  rw [reviser, hnone]

theorem reviser_of_mem (hp : paths.Pairwise d.Apart) (hpath : path ∈ paths)
    (h : d.LeadsTo path place) : d.reviser new paths place = new path := by
  have hsome : paths.find? (fun path => d.LeadsTo path place) = some path := by
    cases hfind : paths.find? (fun path => d.LeadsTo path place) with
    | none => exact absurd h (by simpa using List.find?_eq_none.1 hfind path hpath)
    | some first =>
      have hfirst : d.LeadsTo first place := by simpa using List.find?_some hfind
      by_contra hne
      have happart := hp.forall (List.mem_of_find?_eq_some hfind) hpath
        fun heq => hne (congrArg some heq)
      exact happart place hfirst h
  rw [reviser, hsome]

theorem reviser_concat (h : ∀ q ∈ front, d.Apart q path) (place : Place) :
    d.reviser new (front ++ [path]) place =
      if d.LeadsTo path place then new path else d.reviser new front place := by
  by_cases hlead : d.LeadsTo path place
  · have hnone : front.find? (fun path => d.LeadsTo path place) = none :=
      List.find?_eq_none.2 fun q hq hlead' => h q hq place (of_decide_eq_true hlead') hlead
    simp [reviser, hnone, hlead]
  · simp [reviser, hlead]

/-- Paths lead where they led. -/
@[simp] theorem leadsTo_revise : (d.revise new paths).LeadsTo path place ↔ d.LeadsTo path place :=
  leadsTo_mapFiles

theorem WellFormed.revise (hd : d.WellFormed) (new : Path → List Char → List Char)
    (paths : List Path) : (d.revise new paths).WellFormed :=
  hd.mapFiles _

theorem WellFormed.revise_nil (hd : d.WellFormed) : d.revise new [] = d := by
  refine congrArg (Disk.mk · d.cwd) ((hd.tree.mapFiles_congr ?_).trans hd.tree.mapFiles_id)
  intro place bytes _
  exact recode_id bytes

/-! ## One more file -/

/-- A file whose revised text is the old one may be passed over. -/
theorem revise_concat_of_eq (hd : d.WellFormed) (h : ∀ q ∈ front, d.Apart q path)
    (hread : d.readText path = .ok text) (hsame : new path text = text) :
    d.revise new (front ++ [path]) = d.revise new front := by
  obtain ⟨place, bytes, hlead, hnode, htext⟩ := readText_eq_ok_iff.1 hread
  refine congrArg (Disk.mk · d.cwd) (hd.tree.mapFiles_congr ?_)
  intro q old hq
  rw [reviser_concat h]
  split
  · rename_i hlead'
    cases hlead.eq hlead'
    cases hq.symm.trans hnode
    rw [reviser_of_forall fun a ha hlead'' => h a ha _ hlead'' hlead, recode_id,
      recode_of_decode? htext, hsame, encode_of_decode? htext]
  · rfl

/-- To write the revised text of one more file revises the disk along one more path. -/
theorem writeText_revise (hd : d.WellFormed) (h : ∀ q ∈ front, d.Apart q path)
    (hread : d.readText path = .ok text) :
    (d.revise new front).writeText path (new path text) = .ok (d.revise new (front ++ [path])) := by
  obtain ⟨place, bytes, hlead, hnode, htext⟩ := readText_eq_ok_iff.1 hread
  have hnode' : (d.revise new front).root.get? place = some (.file bytes) := by
    rw [revise, mapFiles, Node.get?_mapFiles, hnode, Option.map_some, Node.mapFiles,
      List.append_nil, reviser_of_forall fun a ha hlead' => h a ha place hlead' hlead, recode_id]
  rw [writeText_of_leadsTo (hd.revise new front) (leadsTo_revise.2 hlead) hnode']
  refine congrArg (fun root => Except.ok (Disk.mk root d.cwd)) ?_
  refine (hd.tree.mapFiles_mapFiles _ _).trans (hd.tree.mapFiles_congr ?_)
  intro q old hq
  rw [reviser_concat h]
  by_cases hplace : q = place
  · subst hplace
    cases hq.symm.trans hnode
    rw [if_pos rfl, if_pos hlead, recode_of_decode? htext]
  · rw [if_neg hplace, if_neg fun hlead' => hplace (hlead'.eq hlead)]

/-! ## What is read afterwards -/

theorem readText_revise_of_mem (hp : paths.Pairwise d.Apart) (hpath : path ∈ paths) :
    (d.revise new paths).readText path = (d.readText path).map (new path) :=
  readText_mapFiles fun _ hlead => congrArg recode (reviser_of_mem hp hpath hlead)

theorem readText_revise_of_apart (h : ∀ q ∈ paths, d.Apart q path) :
    (d.revise new paths).readText path = d.readText path := by
  have hread : (d.revise new paths).readText path = (d.readText path).map id :=
    readText_mapFiles fun place hlead =>
      congrArg recode (reviser_of_forall fun q hq hlead' => h q hq place hlead' hlead)
  rw [hread]
  cases d.readText path <;> rfl

/-- What can be read, and what cannot, stays so. -/
theorem exists_readText_revise (d : Disk) (new : Path → List Char → List Char) (paths : List Path)
    (path : Path) : ∃ g, (d.revise new paths).readText path = (d.readText path).map g := by
  by_cases hlead : ∃ place, d.LeadsTo path place
  · obtain ⟨place, hlead⟩ := hlead
    refine ⟨d.reviser new paths place, readText_mapFiles ?_⟩
    intro place' hlead'
    rw [hlead.eq hlead']
  · exact ⟨id, readText_mapFiles fun place hlead' => absurd ⟨place, hlead'⟩ hlead⟩

/-- The disk `d'` is `d` but for the texts of the files that `paths` lead to, which were revised. -/
structure Revised (d : Disk) (new : Path → List Char → List Char) (paths : List Path) (d' : Disk) :
    Prop where
  cwd : d'.cwd = d.cwd
  /-- The same directories, links and files are there. -/
  shape : d'.root.shape = d.root.shape
  revised : ∀ path ∈ paths, d'.readText path = (d.readText path).map (new path)
  kept : ∀ place bytes, d.root.get? place = some (.file bytes) →
    (∀ path ∈ paths, ¬d.LeadsTo path place) → d'.root.get? place = some (.file bytes)

theorem revised_revise (hd : d.WellFormed) (hp : paths.Pairwise d.Apart)
    (new : Path → List Char → List Char) : d.Revised new paths (d.revise new paths) where
  cwd := rfl
  shape := hd.tree.shape_mapFiles _
  revised path hpath := readText_revise_of_mem hp hpath
  kept place bytes hnode hnone := by
    rw [revise, mapFiles, Node.get?_mapFiles, hnode, Option.map_some, Node.mapFiles,
      List.append_nil, reviser_of_forall hnone, recode_id]

/-! ## Revising again -/

theorem reviser_mapFiles (f : Place → ByteArray → ByteArray) :
    (d.mapFiles f).reviser new paths = d.reviser new paths := by
  funext place
  simp only [reviser, leadsTo_mapFiles]

/-- What was revised before is not revised further, where to revise twice is to revise once. -/
theorem reviser_comp (hp : paths.Pairwise d.Apart) (hfront : front.Sublist paths)
    (hnew : ∀ path ∈ paths, ∀ t, new path (new path t) = new path t) (place : Place) :
    d.reviser new paths place ∘ d.reviser new front place = d.reviser new paths place := by
  by_cases hlead : ∃ path ∈ front, d.LeadsTo path place
  · obtain ⟨path, hpath, hlead⟩ := hlead
    have hmem := hfront.subset hpath
    rw [reviser_of_mem hp hmem hlead, reviser_of_mem (hp.sublist hfront) hpath hlead]
    funext t
    exact hnew path hmem t
  · rw [reviser_of_forall fun path hpath hlead' => hlead ⟨path, hpath, hlead'⟩, Function.comp_id]

theorem revise_revise (hd : d.WellFormed) (hp : paths.Pairwise d.Apart)
    (hnew : ∀ path ∈ paths, ∀ t, new path (new path t) = new path t) :
    (d.revise new paths).revise new paths = d.revise new paths := by
  refine congrArg (Disk.mk · d.cwd) ((hd.tree.mapFiles_mapFiles _ _).trans ?_)
  refine hd.tree.mapFiles_congr ?_
  intro place bytes _
  rw [revise, reviser_mapFiles, recode_recode, reviser_comp hp (List.Sublist.refl paths) hnew]

/-- Where another file is given a text, what can be read after a revision can be read without it. -/
theorem exists_readText_overwrite {q : Path} {t : List Char} (hq : d.Apart path q)
    (hlead : d.LeadsTo path place)
    (h : ((d.revise new paths).overwrite place text).readText q = .ok t) :
    ∃ t', (d.overwrite place text).readText q = .ok t' := by
  have hq' : (d.revise new paths).Apart path q := by simpa [Apart] using hq
  obtain ⟨g, hg⟩ := exists_readText_revise d new paths q
  rw [hq'.readText_overwrite (leadsTo_revise.2 hlead), hg] at h
  cases hold : d.readText q with
  | error fault =>
    rw [hold] at h
    cases h
  | ok t' => exact ⟨t', (hq.readText_overwrite hlead text).trans hold⟩

/-- A file is given a text between two revisions: the first one makes no difference in the end. -/
theorem revise_overwrite_revise (hd : d.WellFormed) (hp : paths.Pairwise d.Apart)
    (hfront : front.Sublist paths)
    (hnew : ∀ path ∈ paths, ∀ t, new path (new path t) = new path t) (place : Place)
    (text : List Char) :
    ((d.revise new front).overwrite place text).revise new paths =
      (d.overwrite place text).revise new paths := by
  have hleft := (hd.revise new front).tree.mapFiles_mapFiles
  refine congrArg (Disk.mk · d.cwd) ?_
  refine ((hleft _ _).trans (hd.tree.mapFiles_mapFiles _ _)).trans
    (Eq.trans ?_ (hd.tree.mapFiles_mapFiles _ _).symm)
  refine hd.tree.mapFiles_congr ?_
  intro q bytes _
  rw [overwrite, overwrite, revise, reviser_mapFiles, reviser_mapFiles, reviser_mapFiles]
  by_cases hq : q = place
  · rw [if_pos hq, if_pos hq]
  · rw [if_neg hq, if_neg hq, recode_recode, reviser_comp hp hfront hnew]

end ImportPaths.Disk
