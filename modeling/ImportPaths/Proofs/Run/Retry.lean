import ImportPaths.Proofs.Run.Image

/-!
# Runs that are repeated

A run that stops at a file which cannot be read leaves the files before it done and all others as
they were.  It may be repeated once the file can be read: since a second pass over a text does
nothing, the disk in the end is the one a single run gives.  After a run that completed, another one
finds nothing to do (`run_retry`).
-/

namespace ImportPaths

namespace Pass

variable {p : Pass} {d : Disk} {text : Path → List Char} {paths : List Path}

/-- A pass whose replacements can be read again: over the texts of some files, a second one finds
nothing to do. -/
def Repeats (p : Pass) (paths : List Path) : Prop :=
  ∀ path ∈ paths, ∀ t, p.outcome path (p.newText path t) = { p.outcome path t with replaced := 0 }

theorem repeats_of_isQuotable (ht : AliasToken.check p.settings.token = .ok ())
    (hr : p.settings.projectRoot.IsQuotable) (hp : ∀ path ∈ paths, path.IsQuotable) :
    p.Repeats paths := by
  have hv := AliasToken.check_eq_ok_iff.1 ht
  intro path hpath
  exact Settings.pass_again hv
    (Settings.writesReadable_of_isQuotable hv (hp path hpath).directory hr)

theorem Repeats.newText_newText (h : p.Repeats paths) {path : Path} (hpath : path ∈ paths)
    (t : List Char) : p.newText path (p.newText path t) = p.newText path t := by
  rw [newText, h path hpath]
  rfl

/-! ## After a run that completed -/

/-- Nothing is counted as changed or replaced in texts that come out of the pass, and as much is
left unresolved. -/
theorem Repeats.tally (h : p.Repeats paths) (text : Path → List Char) :
    (p.tally (fun path => p.newText path (text path)) paths).changed = 0 ∧
      (p.tally (fun path => p.newText path (text path)) paths).replaced = 0 ∧
      (p.tally (fun path => p.newText path (text path)) paths).unresolved =
        (p.tally text paths).unresolved := by
  have hmap (f : Outcome → Nat) :
      (paths.map fun path => f (p.outcome path (p.newText path (text path)))) =
        paths.map fun path => f { p.outcome path (text path) with replaced := 0 } :=
    List.map_congr_left fun path hpath => by rw [h path hpath]
  refine ⟨?_, ?_, ?_⟩
  · refine List.countP_eq_zero.2 ?_
    intro path hpath
    rw [h path hpath]
    exact Bool.false_ne_true
  · rw [Pass.tally, hmap Outcome.replaced]
    simp
  · rw [Pass.tally, hmap fun o => o.unresolved.length]
    rfl

/-- After a run that completed, the files hold the new texts. -/
theorem Completes.diskAfter (hd : d.WellFormed) (h : p.Completes d text paths)
    (hwrite : p.dryRun = false) :
    p.Completes (p.run d).disk (fun path => p.newText path (text path)) paths := by
  have hp := Settings.pairwise_sources hd h.sources
  rw [h.run_eq hd, Pass.diskAfter, hwrite]
  constructor
  · rw [← h.sources]
    exact Settings.sources_mapFiles hd _
  · intro path hpath
    exact (Disk.readText_revise_of_mem hp hpath).trans (by rw [h.readable path hpath]; rfl)

/-- A run after one that completed. -/
theorem Completes.run_run (hd : d.WellFormed) (h : p.Completes d text paths)
    (hwrite : p.dryRun = false) (hp : p.Repeats paths) :
    (p.run (p.run d).disk).disk = (p.run d).disk ∧
      (p.run (p.run d).disk).result =
        .ok (p.tally (fun path => p.newText path (text path)) paths) := by
  have hdisk : (p.run d).disk = d.revise p.newText paths := by
    rw [h.run_eq hd, Pass.diskAfter, hwrite]
    rfl
  have hagain := h.diskAfter hd hwrite
  rw [hdisk] at hagain ⊢
  rw [hagain.run_eq (hd.revise _ _)]
  refine ⟨?_, rfl⟩
  rw [Pass.diskAfter, hwrite]
  exact Disk.revise_revise hd (Settings.pairwise_sources hd h.sources)
    fun path hpath => hp.newText_newText hpath

/-! ## After a run that stopped -/

variable {good rest : List Path} {path : Path} {fault : DiskFault}

theorem StopsAt.disk_eq (hd : d.WellFormed) (h : p.StopsAt d text good path rest fault)
    (hwrite : p.dryRun = false) : (p.run d).disk = d.revise p.newText good := by
  rw [h.run_eq hd, Pass.diskAfter, hwrite]
  rfl

/-- The files before the one that cannot be read are apart from it and from all later ones. -/
theorem StopsAt.apart (hd : d.WellFormed) (h : p.StopsAt d text good path rest fault) {a q : Path}
    (ha : a ∈ good) (hq : q ∈ path :: rest) : d.Apart a q :=
  (List.pairwise_append.1 (Settings.pairwise_sources hd h.sources)).2.2 a ha q hq

theorem StopsAt.revised (hd : d.WellFormed) (h : p.StopsAt d text good path rest fault)
    (hwrite : p.dryRun = false) : d.Revised p.newText good (p.run d).disk := by
  rw [h.disk_eq hd hwrite]
  exact Disk.revised_revise hd (List.pairwise_append.1 (Settings.pairwise_sources hd h.sources)).1 _

/-- What the later files hold is as it was. -/
theorem StopsAt.find?_eq (hd : d.WellFormed) (h : p.StopsAt d text good path rest fault)
    (hwrite : p.dryRun = false) {q : Path} (hq : q ∈ path :: rest) :
    (p.run d).disk.find? q = d.find? q := by
  have hresolve : (p.run d).disk.resolve q = d.resolve q := by
    rw [h.disk_eq hd hwrite]
    exact Disk.resolveFor_mapFiles _ d .look q
  cases htarget : d.resolve q with
  | error fault => rw [Disk.find?, hresolve, Disk.find?, htarget]
  | ok target =>
    obtain ⟨place, bytes, hlead, hnode⟩ :=
      Settings.leadsTo_file_of_mem_sources hd h.sources (List.mem_append_right _ hq) htarget
    have hkept := (h.revised hd hwrite).kept place bytes hnode
      fun a ha hlead' => h.apart hd ha hq place hlead' hlead
    have hlead' : (p.run d).disk.LeadsTo q place := hresolve.trans hlead
    rw [hlead.find?_eq, hlead'.find?_eq, hnode, hkept]

/-- When the file is given a text and the run is then repeated with success, the disk is in the end
as if the file had been given the text at first. -/
theorem StopsAt.retry (hd : d.WellFormed) (h : p.StopsAt d text good path rest fault)
    (hwrite : p.dryRun = false) (hp : p.Repeats (good ++ path :: rest)) {t : List Char}
    {d₂ : Disk} (hedit : (p.run d).disk.writeText path t = .ok d₂) {sum : Summary}
    (hrun : (p.run d₂).result = .ok sum) :
    ∃ d₃ sum', d.writeText path t = .ok d₃ ∧ (p.run d₃).result = .ok sum' ∧
      (p.run d₃).disk = (p.run d₂).disk := by
  have hapart := Settings.pairwise_sources hd h.sources
  have hmem : path ∈ good ++ path :: rest := List.mem_append_right _ List.mem_cons_self
  -- the path leads to a file, which was not touched by the run that stopped
  obtain ⟨target, htarget⟩ := Disk.resolve_of_writeText hedit
  rw [h.disk_eq hd hwrite] at hedit htarget
  obtain ⟨place, bytes, hlead, hnode⟩ := Settings.leadsTo_file_of_mem_sources hd h.sources hmem
    ((Disk.resolveFor_mapFiles _ d .look path).symm.trans htarget)
  have hnode₁ : (d.revise p.newText good).root.get? place = some (.file bytes) := by
    rw [← h.disk_eq hd hwrite]
    exact (h.revised hd hwrite).kept place bytes hnode
      fun a ha hlead' => h.apart hd ha List.mem_cons_self place hlead' hlead
  have hd₁ := hd.revise p.newText good
  rw [Disk.writeText_of_leadsTo hd₁ (Disk.leadsTo_revise.2 hlead) hnode₁] at hedit
  cases hedit
  -- both disks have the files of `d`, and what can be read on one can be read on the other
  obtain ⟨paths, hall₂⟩ := exists_completes (hd₁.overwrite place t) hrun
  have hpaths : p.settings.sources d = .ok paths := by
    rw [← hall₂.sources]
    exact ((Settings.sources_mapFiles hd₁ _).trans (Settings.sources_mapFiles hd _)).symm
  cases h.sources.symm.trans hpaths
  have hall₃ : p.Completes (d.overwrite place t) (d.overwrite place t).textAt
      (good ++ path :: rest) := by
    refine ⟨(Settings.sources_mapFiles hd _).trans hpaths, ?_⟩
    intro q hq
    by_cases hqp : q = path
    · subst hqp
      exact Disk.readText_eq_textAt (hlead.readText_overwrite hnode t)
    · have hpq : d.Apart path q := hapart.forall hmem hq (Ne.symm hqp)
      obtain ⟨t', hread⟩ := Disk.exists_readText_overwrite hpq hlead (hall₂.readable q hq)
      exact Disk.readText_eq_textAt hread
  refine ⟨d.overwrite place t, _, Disk.writeText_of_leadsTo hd hlead hnode t,
    by rw [hall₃.run_eq (hd.overwrite place t)], ?_⟩
  rw [hall₃.run_eq (hd.overwrite place t), hall₂.run_eq (hd₁.overwrite place t), Pass.diskAfter,
    Pass.diskAfter, hwrite]
  exact (Disk.revise_overwrite_revise hd hapart (List.sublist_append_left good _)
    (fun path hpath => hp.newText_newText hpath) place t).symm

/-! ## Both -/

/-- A run that stops at a file which cannot be read has done the files before it, told the changes
to these, and touched nothing else; when the file is then given a text and the run is repeated with
success, the disk is as after one run with the file given the text at first.  A run after one that
completed changes nothing. -/
theorem run_retry (s : Settings) (direction : Direction) (d : Disk) (hd : d.WellFormed)
    (ht : AliasToken.check s.token = .ok ()) (hr : s.projectRoot.IsQuotable)
    (hq : ∀ paths, s.sources d = .ok paths → ∀ path ∈ paths, path.IsQuotable) :
    let p : Pass := { settings := s, direction }
    (∀ path fault, (p.run d).result = .error (.read path fault) →
      (∃ good rest, s.sources d = .ok (good ++ path :: rest) ∧
        (∀ q ∈ good, d.readText q = .ok (d.textAt q)) ∧ d.readText path = .error fault ∧
        d.Revised p.newText good (p.run d).disk ∧
        (∀ q ∈ path :: rest, (p.run d).disk.find? q = d.find? q) ∧
        changes (p.run d).events = p.changesIn d.textAt good) ∧
      ∀ t d₂ sum, (p.run d).disk.writeText path t = .ok d₂ → (p.run d₂).result = .ok sum →
        ∃ d₃ sum', d.writeText path t = .ok d₃ ∧ (p.run d₃).result = .ok sum' ∧
          (p.run d₃).disk = (p.run d₂).disk) ∧
    ∀ sum, (p.run d).result = .ok sum →
      ∃ sum', (p.run (p.run d).disk).result = .ok sum' ∧ sum'.changed = 0 ∧ sum'.replaced = 0 ∧
        sum'.scanned = sum.scanned ∧ sum'.unresolved = sum.unresolved ∧
        (p.run (p.run d).disk).disk = (p.run d).disk := by
  intro p
  have hrepeats {paths : List Path} (hs : s.sources d = .ok paths) : p.Repeats paths :=
    repeats_of_isQuotable ht hr (hq paths hs)
  constructor
  · intro path fault hresult
    obtain ⟨good, rest, hstop⟩ := exists_stopsAt hd hresult
    refine ⟨⟨good, rest, hstop.sources, hstop.readable, hstop.unreadable, hstop.revised hd rfl,
      fun q hq => hstop.find?_eq hd rfl hq, hstop.changes_eq hd⟩, ?_⟩
    intro t d₂ sum hedit hrun
    exact hstop.retry hd rfl (hrepeats hstop.sources) hedit hrun
  · intro sum hresult
    obtain ⟨paths, hall⟩ := exists_completes hd hresult
    obtain ⟨hdisk, hagain⟩ := hall.run_run hd rfl (hrepeats hall.sources)
    obtain ⟨hchanged, hreplaced, hunresolved⟩ := (hrepeats hall.sources).tally d.textAt
    rw [hall.run_eq hd] at hresult
    cases hresult
    exact ⟨_, hagain, hchanged, hreplaced, rfl, hunresolved, hdisk⟩

/-- The second of two files is no text: the run stops there, and goes through once it is one. -/
theorem run_retry_of_broken :
    let p : Pass := { settings := twoFileSettings, direction := .toAlias }
    let d := twoFiles (encode "import './b'".toList) ⟨#[255]⟩
    let d₂ := twoFiles (encode "import '@/b'".toList) (encode "import './a'".toList)
    d.WellFormed ∧ AliasToken.check p.settings.token = .ok () ∧ p.settings.projectRoot.IsQuotable ∧
      (p.run d).result = .error (.read (.ofString "/p/b.ts") .notText) ∧
      (p.run d).disk.writeText (.ofString "/p/b.ts") "import './a'".toList = .ok d₂ ∧
      (p.run d₂).result = .ok ⟨2, 1, 1, 1, 0⟩ ∧
      (∃ d₃ sum', d.writeText (.ofString "/p/b.ts") "import './a'".toList = .ok d₃ ∧
        (p.run d₃).result = .ok sum' ∧ (p.run d₃).disk = (p.run d₂).disk) := by
  intro p d d₂
  have hd : d.WellFormed := wellFormed_twoFiles _ _
  have ht : AliasToken.check twoFileSettings.token = .ok () := by decide
  have hr : twoFileSettings.projectRoot.IsQuotable := by decide
  have hq : ∀ paths, twoFileSettings.sources d = .ok paths → ∀ path ∈ paths, path.IsQuotable := by
    intro paths hs
    cases (sources_twoFiles _ _).symm.trans hs
    decide
  have hrun : (p.run d).result = .error (.read (.ofString "/p/b.ts") .notText) := by
    subst p d
    cbv
  have hedit : (p.run d).disk.writeText (.ofString "/p/b.ts") "import './a'".toList = .ok d₂ := by
    subst p d d₂
    cbv
  have hrun₂ : (p.run d₂).result = .ok ⟨2, 1, 1, 1, 0⟩ := by
    subst p d₂
    cbv
  exact ⟨hd, ht, hr, hrun, hedit, hrun₂,
    ((run_retry twoFileSettings .toAlias d hd ht hr hq).1 _ _ hrun).2 _ _ _ hedit hrun₂⟩

end Pass

end ImportPaths
