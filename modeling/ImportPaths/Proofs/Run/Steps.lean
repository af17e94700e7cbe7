import ImportPaths.Proofs.Disk.Revision
import ImportPaths.Proofs.Run.Sources
import ImportPaths.Proofs.Source.Marks
import ImportPaths.Run.Tree
import Mathlib

/-!
# A run, file by file

How far a run has come is said by the front of its files: the disk is then `diskAfter` of the front,
the counters are its `tally`, and what was told is its `trace`.  Each of these is a plain function
of the texts that the files had at first.

* `search_misses_nothing`: a file that is not read through has nothing in it for the pass.
* `convertFile_of_ok`, `convertFile_of_error`: one more file extends the front, or ends the run.
* `convertAll_append`: a front of files that can all be read takes the run to behind it.
* `run_cases`: so there are three ways for a run to go.
-/

namespace ImportPaths.Pass

variable {p : Pass} {d : Disk} {path : Path} {t : List Char} {fault : DiskFault}
variable {text : Path → List Char} {paths front good rest : List Path}

/-! ## One file -/

/-- What comes out of the pass over a text of the file at `path`. -/
def outcome (p : Pass) (path : Path) (t : List Char) : Outcome :=
  p.settings.pass p.direction path t

/-- The text of the file at `path` after the pass over it. -/
def newText (p : Pass) (path : Path) (t : List Char) : List Char := (p.outcome path t).content

/-- Whether a text is read through. -/
def readsThrough (p : Pass) (t : List Char) : Bool :=
  hasCandidates p.settings.token p.direction t

/-- What a run makes of a text. -/
def outcome? (p : Pass) (path : Path) (t : List Char) : Option Outcome :=
  if p.readsThrough t then some (p.outcome path t) else none

/-- The disk on which the pass was made over some files. -/
def diskAfter (p : Pass) (d : Disk) (front : List Path) : Disk :=
  if p.dryRun then d else d.revise p.newText front

theorem outcome_of_not_readsThrough (h : p.readsThrough t = false) (path : Path) :
    p.outcome path t = ⟨t, 0, []⟩ :=
  Settings.pass_of_not_hasCandidates h

theorem newText_of_not_changed (h : (p.outcome path t).changed = false) : p.newText path t = t := by
  rw [Outcome.changed, bne_eq_false_iff_eq] at h
  exact Settings.content_of_replaced_eq_zero h

theorem readText_diskAfter (h : ∀ q ∈ front, d.Apart q path) :
    (p.diskAfter d front).readText path = d.readText path := by
  rw [diskAfter]
  split
  · rfl
  · exact Disk.readText_revise_of_apart h

theorem diskAfter_concat_of_not_changed (hd : d.WellFormed) (h : ∀ q ∈ front, d.Apart q path)
    (hread : d.readText path = .ok t) (ho : (p.outcome path t).changed = false) :
    p.diskAfter d (front ++ [path]) = p.diskAfter d front := by
  rw [diskAfter, diskAfter, Disk.revise_concat_of_eq hd h hread (newText_of_not_changed ho)]

theorem commit_diskAfter (hd : d.WellFormed) (h : ∀ q ∈ front, d.Apart q path)
    (hread : d.readText path = .ok t) :
    p.commit (p.diskAfter d front) path (p.outcome path t) =
      .ok (p.diskAfter d (front ++ [path])) := by
  rw [commit]
  cases ho : (p.outcome path t).changed with
  | false => rw [diskAfter_concat_of_not_changed hd h hread ho]; rfl
  | true =>
    cases hdry : p.dryRun with
    | true => simp [diskAfter, hdry]
    | false =>
      have hwrite : (d.revise p.newText front).writeText path (p.newText path t) = .ok _ :=
        Disk.writeText_revise hd h hread
      simp only [diskAfter, hdry, Bool.not_false, Bool.and_true, if_true, Bool.false_eq_true,
        if_false]
      rw [← newText, hwrite]
      rfl

/-- A file that cannot be read ends the run. -/
theorem convertFile_of_error (h : ∀ q ∈ front, d.Apart q path)
    (hread : d.readText path = .error fault) :
    p.convertFile (p.diskAfter d front) path =
      ⟨p.diskAfter d front, [], .error (.read path fault)⟩ := by
  rw [convertFile, readText_diskAfter h, hread]

/-- A file that can be read is done.  Where the look for marks rules the text out, there would have
been nothing to do or to tell. -/
theorem convertFile_of_ok (hd : d.WellFormed) (h : ∀ q ∈ front, d.Apart q path)
    (hread : d.readText path = .ok t) :
    p.convertFile (p.diskAfter d front) path =
      ⟨p.diskAfter d (front ++ [path]), (p.outcome path t).unresolved.map (.leftAlone path),
        .ok (p.outcome? path t)⟩ := by
  rw [convertFile, readText_diskAfter h, hread]
  dsimp only
  rw [← outcome, commit_diskAfter hd h hread, outcome?, ← readsThrough]
  cases hmark : p.readsThrough t with
  | true => rfl
  | false =>
    have ho := outcome_of_not_readsThrough hmark path
    rw [diskAfter_concat_of_not_changed hd h hread (by rw [ho]; rfl), ho]
    rfl

/-- A file goes without an outcome exactly when its text is ruled out. -/
theorem result_convertFile_eq_none_iff :
    (p.convertFile d path).result = .ok none ↔
      ∃ t, d.readText path = .ok t ∧ p.readsThrough t = false := by
  cases hread : d.readText path with
  | error fault => simp [convertFile, hread]
  | ok t =>
    cases hmark : p.readsThrough t with
    | false =>
      rw [readsThrough] at hmark
      simp [convertFile, hread, readsThrough, hmark]
    | true =>
      rw [readsThrough] at hmark
      cases hcommit : p.commit d path (p.settings.pass p.direction path t) <;>
        simp [convertFile, hread, readsThrough, hmark, hcommit]

/-- The look for marks finds the quotes with a mark behind them and nothing else; a text without one
has no statement for the pass.  A file goes without an outcome exactly when its text is such a one,
and then the pass over it would have done nothing and found nothing. -/
theorem search_misses_nothing (token : List Char) (direction : Direction) (t : List Char)
    (p : Pass) (d : Disk) (path : Path) :
    (hasCandidates token direction t = true ↔
        ∃ mark ∈ direction.marks token, ∃ quote : Quote, quote.toChar :: mark <:+: t) ∧
      (hasCandidates token direction t = false → statementsFor token direction t = []) ∧
      ((p.convertFile d path).result = .ok none ↔
        ∃ read, d.readText path = .ok read ∧
          hasCandidates p.settings.token p.direction read = false) ∧
      ((p.convertFile d path).result = .ok none → ∀ read, d.readText path = .ok read →
        let o := p.settings.pass p.direction path read
        o.content = read ∧ o.changed = false ∧ o.replaced = 0 ∧ o.unresolved = []) := by
  refine ⟨hasCandidates_iff, statementsFor_of_not_hasCandidates, result_convertFile_eq_none_iff, ?_⟩
  intro hnone read hread
  obtain ⟨read', hread', hmark⟩ := result_convertFile_eq_none_iff.1 hnone
  cases hread.symm.trans hread'
  rw [Settings.pass_of_not_hasCandidates hmark]
  exact ⟨rfl, rfl, rfl, rfl⟩

/-- A file whose one statement is relative already is passed over on the way to relative ones. -/
theorem search_misses_nothing_of_relative :
    let t := "import './b'".toList
    let p : Pass := { settings := {}, direction := .toRelative }
    let d : Disk := { root := .directory [("a.ts".toList, .file (encode t))] }
    (statements p.settings.token t).map (·.statement.body) = ["./b".toList] ∧
      hasCandidates p.settings.token .toRelative t = false ∧
      statementsFor p.settings.token .toRelative t = [] ∧
      (p.convertFile d (.ofString "/a.ts")).result = .ok none ∧
      d.readText (.ofString "/a.ts") = .ok t ∧
      (p.settings.pass .toRelative (.ofString "/a.ts") t).content = t := by
  intro t p d
  have hbody : (statements p.settings.token t).map (·.statement.body) = ["./b".toList] := by
    subst p t
    cbv
  have hsearch : hasCandidates p.settings.token .toRelative t = false := by decide
  have hread : d.readText (.ofString "/a.ts") = .ok t := by
    subst d t
    cbv
  obtain ⟨-, hnone, hskip, hidle⟩ :=
    search_misses_nothing p.settings.token .toRelative t p d (.ofString "/a.ts")
  have hresult := hskip.2 ⟨t, hread, hsearch⟩
  exact ⟨hbody, hsearch, hnone hsearch, hresult, hread, (hidle hresult t hread).1⟩

/-! ## Counters and events -/

/-- The counters after some files. -/
def tally (p : Pass) (text : Path → List Char) (paths : List Path) : Summary where
  scanned := paths.length
  visited := paths.countP fun path => p.readsThrough (text path)
  changed := paths.countP fun path => (p.outcome path (text path)).changed
  replaced := (paths.map fun path => (p.outcome path (text path)).replaced).sum
  unresolved := (paths.map fun path => (p.outcome path (text path)).unresolved.length).sum

/-- What is told about some files. -/
def trace (p : Pass) (text : Path → List Char) (paths : List Path) : List RunEvent :=
  paths.flatMap fun path =>
    (p.outcome path (text path)).unresolved.map (.leftAlone path) ++
      p.fileEvents path (p.outcome? path (text path))

/-- The changes to some files: one for each file that changed, in order. -/
def changesIn (p : Pass) (text : Path → List Char) (paths : List Path) : List Change :=
  (paths.filter fun path => (p.outcome path (text path)).changed).map fun path =>
    ⟨path, (p.outcome path (text path)).replaced, p.dryRun⟩

theorem count_tally (p : Pass) (text : Path → List Char) (front : List Path) (path : Path) :
    count (p.tally text front) (p.outcome? path (text path)) = p.tally text (front ++ [path]) := by
  rw [outcome?]
  cases hmark : p.readsThrough (text path) with
  | true => simp [count, tally, hmark, List.countP_cons]
  | false =>
    have ho := outcome_of_not_readsThrough hmark path
    simp [count, tally, hmark, ho, Outcome.changed]

theorem changes_append (es fs : List RunEvent) : changes (es ++ fs) = changes es ++ changes fs :=
  List.filterMap_append

theorem changes_leftAlone (path : Path) (specifiers : List (List Char)) :
    changes (specifiers.map (.leftAlone path)) = [] := by
  induction specifiers with
  | nil => rfl
  | cons specifier specifiers ih => exact ih

theorem changes_trace (p : Pass) (text : Path → List Char) (paths : List Path) :
    changes (p.trace text paths) = p.changesIn text paths := by
  induction paths with
  | nil => rfl
  | cons path paths ih =>
    rw [trace, List.flatMap_cons, ← trace, changes_append, changes_append, ih, changes_leftAlone,
      List.nil_append, changesIn, changesIn, outcome?]
    cases hmark : p.readsThrough (text path) with
    | true => cases ho : (p.outcome path (text path)).changed <;> simp [fileEvents, changes, ho]
    | false =>
      have ho := outcome_of_not_readsThrough hmark path
      simp [fileEvents, changes, ho, Outcome.changed]

/-! ## All files -/

/-- After a front of files that can all be read, the run goes on behind it. -/
theorem convertAll_append (hd : d.WellFormed) (hp : (front ++ good).Pairwise d.Apart)
    (hread : ∀ path ∈ good, d.readText path = .ok (text path)) (rest : List Path) :
    p.convertAll (p.diskAfter d front) (p.tally text front) (good ++ rest) =
      let after := p.convertAll (p.diskAfter d (front ++ good)) (p.tally text (front ++ good)) rest
      { after with events := p.trace text good ++ after.events } := by
  induction good generalizing front with
  | nil => simp [trace]
  | cons path good ih =>
    have happart : ∀ q ∈ front, d.Apart q path := fun q hq =>
      (List.pairwise_append.1 hp).2.2 q hq path List.mem_cons_self
    have hp' : ((front ++ [path]) ++ good).Pairwise d.Apart := by
      rwa [List.append_assoc, List.singleton_append]
    have hnext := ih hp' fun q hq => hread q (List.mem_cons_of_mem _ hq)
    rw [List.append_assoc, List.singleton_append] at hnext
    rw [List.cons_append, convertAll, convertFile_of_ok hd happart (hread path List.mem_cons_self)]
    dsimp only
    rw [count_tally, hnext]
    simp only [trace, List.flatMap_cons, List.append_assoc]

theorem diskAfter_nil (hd : d.WellFormed) : p.diskAfter d [] = d := by
  rw [diskAfter, hd.revise_nil, ite_self]

/-! ## The ways a run can go -/

/-- All the files of a run can be read, and these are their texts. -/
structure Completes (p : Pass) (d : Disk) (text : Path → List Char) (paths : List Path) : Prop where
  sources : p.settings.sources d = .ok paths
  readable : ∀ path ∈ paths, d.readText path = .ok (text path)

/-- The file at `path` cannot be read, and the files of the run before it can. -/
structure StopsAt (p : Pass) (d : Disk) (text : Path → List Char) (good : List Path) (path : Path)
    (rest : List Path) (fault : DiskFault) : Prop where
  sources : p.settings.sources d = .ok (good ++ path :: rest)
  readable : ∀ q ∈ good, d.readText q = .ok (text q)
  unreadable : d.readText path = .error fault

theorem Completes.run_eq (hd : d.WellFormed) (h : p.Completes d text paths) :
    p.run d = ⟨p.diskAfter d paths,
      .started p :: (p.trace text paths ++ [.finished (p.tally text paths)]),
      .ok (p.tally text paths)⟩ := by
  have hp : ([] ++ paths).Pairwise d.Apart := Settings.pairwise_sources hd h.sources
  have hall : p.convertAll _ (p.tally text []) _ = _ := convertAll_append hd hp h.readable []
  rw [diskAfter_nil hd, List.append_nil, List.nil_append] at hall
  rw [run, h.sources]
  dsimp only
  rw [show ({} : Summary) = p.tally text [] from rfl, hall, convertAll]

theorem StopsAt.run_eq (hd : d.WellFormed) (h : p.StopsAt d text good path rest fault) :
    p.run d = ⟨p.diskAfter d good, .started p :: p.trace text good, .error (.read path fault)⟩ := by
  obtain ⟨hgood, -, hrest⟩ := List.pairwise_append.1 (Settings.pairwise_sources hd h.sources)
  have hp : ([] ++ good).Pairwise d.Apart := hgood
  have hall : p.convertAll _ (p.tally text []) _ = _ :=
    convertAll_append hd hp h.readable (path :: rest)
  rw [diskAfter_nil hd, List.nil_append, convertAll,
    convertFile_of_error (fun q hq => hrest q hq path List.mem_cons_self) h.unreadable] at hall
  rw [run, h.sources]
  dsimp only
  rw [show ({} : Summary) = p.tally text [] from rfl, hall]
  simp

theorem run_of_sources_error {e : RunError} (h : p.settings.sources d = .error e) :
    p.run d = ⟨d, [.started p], .error e⟩ := by
  rw [run, h]

/-- Either some files can all be read, or there is a first one that cannot. -/
theorem readable_or_exists (d : Disk) (paths : List Path) :
    (∀ path ∈ paths, d.readText path = .ok (d.textAt path)) ∨
      ∃ good path rest fault, paths = good ++ path :: rest ∧
        (∀ q ∈ good, d.readText q = .ok (d.textAt q)) ∧ d.readText path = .error fault := by
  induction paths with
  | nil => exact .inl fun _ h => nomatch h
  | cons path paths ih =>
    cases hread : d.readText path with
    | error fault => exact .inr ⟨[], path, paths, fault, rfl, fun _ h => (nomatch h), hread⟩
    | ok t =>
      have htext : d.readText path = .ok (d.textAt path) := Disk.readText_eq_textAt hread
      rcases ih with hall | ⟨good, q, rest, fault, rfl, hgood, herror⟩
      · exact .inl (List.forall_mem_cons.2 ⟨htext, hall⟩)
      · exact .inr ⟨path :: good, q, rest, fault, rfl, List.forall_mem_cons.2 ⟨htext, hgood⟩,
          herror⟩

/-- A run has nowhere to go, or it completes, or it stops at a file. -/
theorem run_cases (p : Pass) (d : Disk) :
    (p.settings.sources d = .error (.scanRootNotFound p.settings.scanRoot)) ∨
      (∃ paths, p.Completes d d.textAt paths) ∨
      ∃ good path rest fault, p.StopsAt d d.textAt good path rest fault := by
  cases hs : p.settings.sources d with
  | error e => exact .inl (congrArg _ (Settings.sources_eq_error hs))
  | ok paths =>
    rcases readable_or_exists d paths with hall | ⟨good, path, rest, fault, rfl, hgood, herror⟩
    · exact .inr (.inl ⟨paths, hs, hall⟩)
    · exact .inr (.inr ⟨good, path, rest, fault, hs, hgood, herror⟩)

theorem exists_completes (hd : d.WellFormed) {s : Summary} (h : (p.run d).result = .ok s) :
    ∃ paths, p.Completes d d.textAt paths := by
  rcases run_cases p d with hnone | hall | ⟨good, path, rest, fault, hstop⟩
  · rw [run_of_sources_error hnone] at h
    cases h
  · exact hall
  · rw [hstop.run_eq hd] at h
    cases h

theorem exists_stopsAt (hd : d.WellFormed) (h : (p.run d).result = .error (.read path fault)) :
    ∃ good rest, p.StopsAt d d.textAt good path rest fault := by
  rcases run_cases p d with hnone | ⟨paths, hall⟩ | ⟨good, path, rest, fault, hstop⟩
  · rw [run_of_sources_error hnone] at h
    cases h
  · rw [hall.run_eq hd] at h
    cases h
  · rw [hstop.run_eq hd] at h
    cases h
    exact ⟨good, rest, hstop⟩

end ImportPaths.Pass
