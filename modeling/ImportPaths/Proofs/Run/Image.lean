import ImportPaths.Proofs.Run.Steps

/-!
# What a run leaves behind

A run over files that can all be read replaces the text of each by what the pass makes of it,
touches nothing else, and counts and tells what happened, as if the pass were made over every file
(`run_image`).  A run that is to write nothing comes to the same result and tells the same
(`run_dryRun`).
-/

namespace ImportPaths

/-! ## Counters and changes -/

namespace Pass

variable {p : Pass} {text : Path → List Char} {paths : List Path}

theorem readsThrough_of_changed {path : Path} {t : List Char}
    (h : (p.outcome path t).changed = true) : p.readsThrough t = true := by
  by_contra hmark
  rw [outcome_of_not_readsThrough (Bool.not_eq_true _ ▸ hmark)] at h
  cases h

/-- Every changed file was read through, and every file that was read through was looked at. -/
theorem tally_le (p : Pass) (text : Path → List Char) (paths : List Path) :
    (p.tally text paths).changed ≤ (p.tally text paths).visited ∧
      (p.tally text paths).visited ≤ (p.tally text paths).scanned :=
  ⟨List.countP_mono_left fun _ _ h => readsThrough_of_changed h, List.countP_le_length⟩

/-- The changes account for every specifier that was replaced. -/
theorem sum_changesIn (p : Pass) (text : Path → List Char) (paths : List Path) :
    ((p.changesIn text paths).map Change.replaced).sum = (p.tally text paths).replaced := by
  induction paths with
  | nil => rfl
  | cons path paths ih =>
    rw [changesIn, tally] at ih ⊢
    cases ho : (p.outcome path (text path)).changed with
    | true => simpa [ho] using ih
    | false =>
      have hzero : (p.outcome path (text path)).replaced = 0 := by simpa [Outcome.changed] using ho
      simpa [ho, hzero] using ih

end Pass

theorem Settings.exists_sources {s : Settings} {d : Disk} (h : d.isDir s.scanRoot = true) :
    ∃ paths, s.sources d = .ok paths := by
  unfold sources
  rw [Disk.isDir] at h
  rcases hfind : d.find? s.scanRoot with _ | ⟨bytes⟩ | ⟨path⟩ | ⟨entries⟩
  · rw [hfind] at h
    cases h
  · rw [hfind] at h
    cases h
  · rw [hfind] at h
    cases h
  · exact ⟨_, rfl⟩

theorem Pass.Completes.changes_eq {p : Pass} {d : Disk} {text : Path → List Char}
    {paths : List Path} (hd : d.WellFormed) (h : p.Completes d text paths) :
    changes (p.run d).events = p.changesIn text paths := by
  rw [h.run_eq hd, ← changes_trace]
  exact (changes_append _ _).trans (List.append_nil _)

theorem Pass.StopsAt.changes_eq {p : Pass} {d : Disk} {text : Path → List Char}
    {good rest : List Path} {path : Path} {fault : DiskFault} (hd : d.WellFormed)
    (h : p.StopsAt d text good path rest fault) :
    changes (p.run d).events = p.changesIn text good := by
  rw [h.run_eq hd, ← changes_trace]
  rfl

/-! ## The image -/

/-- A run over a directory whose files can all be read: it succeeds, gives each file the text that
comes out of the pass over it, and changes nothing else.  Its counters are those of the pass over
all the files, and each file that changed is told once, in order, with what was replaced in it. -/
theorem Pass.run_image (s : Settings) (direction : Direction) (d : Disk)
    (text : Path → List Char) (hd : d.WellFormed) (hroot : d.isDir s.scanRoot = true)
    (hread : ∀ paths, s.sources d = .ok paths → ∀ path ∈ paths, d.readText path = .ok (text path)) :
    let p : Pass := { settings := s, direction }
    ∃ paths sum, s.sources d = .ok paths ∧ (p.run d).result = .ok sum ∧
      d.Revised p.newText paths (p.run d).disk ∧ sum = p.tally text paths ∧
      changes (p.run d).events = p.changesIn text paths ∧
      sum.changed ≤ sum.visited ∧ sum.visited ≤ sum.scanned ∧
      ((changes (p.run d).events).map Change.replaced).sum = sum.replaced := by
  intro p
  obtain ⟨paths, hs⟩ := Settings.exists_sources hroot
  have hall : p.Completes d text paths := ⟨hs, hread paths hs⟩
  obtain ⟨hchanged, hvisited⟩ := p.tally_le text paths
  refine ⟨paths, p.tally text paths, hs, ?_, ?_, rfl, hall.changes_eq hd, hchanged, hvisited, ?_⟩
  · rw [hall.run_eq hd]
  · rw [hall.run_eq hd]
    exact Disk.revised_revise hd (Settings.pairwise_sources hd hs) p.newText
  · rw [hall.changes_eq hd, sum_changesIn]

/-! ## Runs that write nothing -/

/-- A change as it is told by a run that writes nothing. -/
def Change.unwritten (c : Change) : Change := { c with dryRun := true }

/-- A run that is to write nothing leaves the disk alone, comes to the same result as one that
writes, and tells the same changes. -/
theorem Pass.run_dryRun (s : Settings) (direction : Direction) {d : Disk} (hd : d.WellFormed) :
    let dry : Pass := ⟨s, direction, true⟩
    let real : Pass := ⟨s, direction, false⟩
    (dry.run d).disk = d ∧ (dry.run d).result = (real.run d).result ∧
      changes (dry.run d).events = (changes (real.run d).events).map Change.unwritten := by
  intro dry real
  have hchanges (text : Path → List Char) (paths : List Path) :
      dry.changesIn text paths = (real.changesIn text paths).map Change.unwritten := by
    rw [changesIn, changesIn, List.map_map]
    rfl
  rcases run_cases real d with hnone | ⟨paths, hreal⟩ | ⟨good, path, rest, fault, hreal⟩
  · have hdry : dry.settings.sources d = .error (.scanRootNotFound s.scanRoot) := hnone
    rw [run_of_sources_error hdry, run_of_sources_error hnone]
    exact ⟨rfl, rfl, rfl⟩
  · have hdry : dry.Completes d d.textAt paths := ⟨hreal.sources, hreal.readable⟩
    refine ⟨?_, ?_, ?_⟩
    · rw [hdry.run_eq hd]
      rfl
    · rw [hdry.run_eq hd, hreal.run_eq hd]
      rfl
    · rw [hdry.changes_eq hd, hreal.changes_eq hd, hchanges]
  · have hdry : dry.StopsAt d d.textAt good path rest fault :=
      ⟨hreal.sources, hreal.readable, hreal.unreadable⟩
    refine ⟨?_, ?_, ?_⟩
    · rw [hdry.run_eq hd]
      rfl
    · rw [hdry.run_eq hd, hreal.run_eq hd]
    · rw [hdry.changes_eq hd, hreal.changes_eq hd, hchanges]

/-! ### A small disk -/

/-- Two files in the directory `/p`. -/
def twoFiles (a b : ByteArray) : Disk where
  root := .directory [(['p'], .directory [("a.ts".toList, .file a), ("b.ts".toList, .file b)])]

/-- Settings to run there. -/
def twoFileSettings : Settings := { scanRoot := .ofString "/p", projectRoot := .ofString "/p" }

theorem wellFormed_twoFiles (a b : ByteArray) : (twoFiles a b).WellFormed where
  directory := rfl
  tree := by
    have hp : IsName ['p'] := ⟨by decide, by decide⟩
    have ha : IsName "a.ts".toList := ⟨by decide, by decide⟩
    have hb : IsName "b.ts".toList := ⟨by decide, by decide⟩
    refine .directory (by simp) (List.forall_mem_singleton.2 hp)
      (List.forall_mem_singleton.2 (.directory ?_ ?_ ?_))
    · show ["a.ts".toList, "b.ts".toList].Nodup
      decide
    · exact List.forall_mem_cons.2 ⟨ha, List.forall_mem_singleton.2 hb⟩
    · exact List.forall_mem_cons.2 ⟨.file a, List.forall_mem_singleton.2 (.file b)⟩
  stands := ⟨_, rfl⟩

theorem sources_twoFiles (a b : ByteArray) :
    twoFileSettings.sources (twoFiles a b) = .ok [.ofString "/p/a.ts", .ofString "/p/b.ts"] := by
  have hfind : (twoFiles a b).find? twoFileSettings.scanRoot =
      some (.directory [("a.ts".toList, .file a), ("b.ts".toList, .file b)]) := by cbv
  rw [Settings.sources, hfind]
  simp only [Node.files, Node.filesOf, sortByName, Node.isDirectory, Bool.false_and]
  cbv

theorem readText_twoFiles (a b : ByteArray) :
    (twoFiles a b).readText (.ofString "/p/a.ts") = Disk.textIn (some (.file a)) ∧
      (twoFiles a b).readText (.ofString "/p/b.ts") = Disk.textIn (some (.file b)) := by
  have ha : (twoFiles a b).LeadsTo (.ofString "/p/a.ts") [['p'], "a.ts".toList] := by cbv
  have hb : (twoFiles a b).LeadsTo (.ofString "/p/b.ts") [['p'], "b.ts".toList] := by cbv
  exact ⟨ha.readText_eq, hb.readText_eq⟩

/-- Two texts for the files there. -/
def twoTexts (a b : List Char) (path : Path) : List Char :=
  if path.chars.contains 'a' then a else b

theorem readText_twoTexts {a b : List Char} {path : Path}
    (h : path ∈ [Path.ofString "/p/a.ts", .ofString "/p/b.ts"]) :
    (twoFiles (encode a) (encode b)).readText path = .ok (twoTexts a b path) := by
  obtain ⟨ha, hb⟩ := readText_twoFiles (encode a) (encode b)
  rcases List.mem_pair.1 h with rfl | rfl
  · rw [ha, Disk.textIn, decode?_encode, twoTexts, if_pos (by decide)]
    rfl
  · rw [hb, Disk.textIn, decode?_encode, twoTexts, if_neg (by decide)]
    rfl

/-- A file imports its neighbour: it is changed, the other one is not even read through. -/
theorem Pass.run_image_of_neighbour :
    let p : Pass := { settings := twoFileSettings, direction := .toAlias }
    let d := twoFiles (encode "import './b'".toList) (encode "let x = 1".toList)
    d.WellFormed ∧ d.isDir twoFileSettings.scanRoot = true ∧
      (p.run d).result = .ok ⟨2, 1, 1, 1, 0⟩ ∧
      (p.run d).disk.readText (.ofString "/p/a.ts") = .ok "import '@/b'".toList ∧
      changes (p.run d).events = [⟨.ofString "/p/a.ts", 1, false⟩] := by
  intro p d
  have hd : d.WellFormed := wellFormed_twoFiles _ _
  have hroot : d.isDir twoFileSettings.scanRoot = true := by
    subst d
    cbv
  have hread : ∀ paths, twoFileSettings.sources d = .ok paths → ∀ path ∈ paths,
      d.readText path = .ok (twoTexts "import './b'".toList "let x = 1".toList path) := by
    intro paths hs path hpath
    cases (sources_twoFiles _ _).symm.trans hs
    exact readText_twoTexts hpath
  obtain ⟨paths, sum, hs, hresult, hrevised, hsum, hchanges, -⟩ :=
    run_image twoFileSettings .toAlias d _ hd hroot hread
  cases (sources_twoFiles _ _).symm.trans hs
  refine ⟨hd, hroot, ?_, ?_, ?_⟩
  · rw [hresult, hsum]
    cbv
  · rw [hrevised.revised _ List.mem_cons_self, hread _ hs _ List.mem_cons_self]
    cbv
  · rw [hchanges]
    cbv

end ImportPaths
