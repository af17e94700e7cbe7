import ImportPaths.Command.Check
import ImportPaths.Command.Convert
import ImportPaths.Proofs.Command.Job
import ImportPaths.Proofs.Run.Image

/-!
# Looking ahead

A run that writes nothing tells what one that writes would do, and the command that only looks tells
what the two commands that convert would come to, each on the disk as it is (`check_predicts`).
-/

namespace ImportPaths

open Job

variable {d : Disk}

/-- What comes of a run on a disk, as a command has it. -/
def runOutcome (s : Settings) (direction : Direction) (d : Disk) : Except CommandError Summary :=
  ((⟨s, direction, false⟩ : Pass).run d).result.mapError .run

/-- A preview comes to what a run would, and writes nothing. -/
theorem does_preview (hd : d.WellFormed) (s : Settings) (direction : Direction) :
    (preview s direction).Does d ((runOutcome s direction d).map (direction, ·)) d := by
  obtain ⟨hdisk, hresult, -⟩ := Pass.run_dryRun s direction hd
  have hrun := does_runPass ⟨s, direction, true⟩ (fun _ => []) d
  rw [hdisk, hresult] at hrun
  have hmap (r : Except CommandError Summary) :
      (r >>= fun summary => .ok (direction, summary)) = r.map (direction, ·) := by
    cases r <;> rfl
  rw [← hmap]
  refine hrun.bind fun summary => (does_tell _ d).bind_ok ?_
  split
  · exact (does_tell _ d).bind_ok (does_pure _ d)
  · exact does_pure _ d

/-- A command that converts comes to what its run does. -/
theorem exists_does_convert {env : Environment} {args : CommandLine.ConfigArgs} {cwd : Path}
    {s : Settings} (direction : Direction) (hcwd : currentDir.Does d (.ok cwd) d)
    (hs : (prepare env args cwd).Does d (.ok s) d) :
    ∃ d', (convert env direction args false).Does d (runOutcome s direction d) d' := by
  refine ⟨_, hcwd.bind_ok (hs.bind_ok ((does_tell _ d).bind_ok ((does_tell _ d).bind_ok
    ((does_runPass _ _ d).bind_same fun summary => (does_tell _ _).bind_ok (does_pure _ _)))))⟩

/-- A look comes to what the two runs would, one after the other. -/
theorem does_checkCommand (hd : d.WellFormed) {env : Environment} {args : CommandLine.ConfigArgs}
    {cwd : Path} {s : Settings} (hcwd : currentDir.Does d (.ok cwd) d)
    (hs : (prepare env args cwd).Does d (.ok s) d) :
    (checkCommand env args).Does d
      (do
        let a ← runOutcome s .toAlias d
        let b ← runOutcome s .toRelative d
        return [(.toAlias, a), (.toRelative, b)]) d := by
  have hall := does_mapM (does_preview hd s) Direction.all
  have hboth : Direction.all.mapM (fun direction => (runOutcome s direction d).map (direction, ·)) =
      do
        let a ← runOutcome s .toAlias d
        let b ← runOutcome s .toRelative d
        return [(.toAlias, a), (.toRelative, b)] := by
    simp only [Direction.all, List.mapM_cons, List.mapM_nil]
    cases runOutcome s .toAlias d with
    | error e => rfl
    | ok a => cases runOutcome s .toRelative d <;> rfl
  rw [hboth] at hall
  exact (does_tell _ d).bind_ok (hcwd.bind_ok (hs.bind_ok ((does_tell _ d).bind_ok
    ((does_tell _ d).bind_ok (hall.bind_same fun _ => (does_tell _ d).bind_ok (does_pure _ d))))))

/-- Runs that write nothing, and the command that only looks, leave the disk as it is.  A run that
writes nothing comes to the same result as one that writes and tells the same changes; the command
that only looks comes to what the two commands that convert come to on the same disk. -/
theorem check_predicts (d : Disk) (hd : d.WellFormed) :
    (∀ (s : Settings) (direction : Direction),
      let dry : Pass := ⟨s, direction, true⟩
      let real : Pass := ⟨s, direction, false⟩
      (dry.run d).disk = d ∧ (dry.run d).result = (real.run d).result ∧
        changes (dry.run d).events = (changes (real.run d).events).map Change.unwritten) ∧
    ∀ (env : Environment) (args : CommandLine.ConfigArgs),
      ((checkCommand env args).perform d).2.disk = d ∧
      ((checkCommand env args).perform d).1 = do
        let a ← ((convert env .toAlias args false).perform d).1
        let b ← ((convert env .toRelative args false).perform d).1
        return [(.toAlias, a), (.toRelative, b)] := by
  refine ⟨fun s direction => Pass.run_dryRun s direction hd, ?_⟩
  intro env args
  rcases prepared_or_fails env args d with ⟨cwd, s, hcwd, hs⟩ | ⟨e, hfails⟩
  · obtain ⟨_, halias⟩ := exists_does_convert .toAlias hcwd hs
    obtain ⟨_, hrelative⟩ := exists_does_convert .toRelative hcwd hs
    have hcheck := does_checkCommand hd hcwd hs
    rw [hcheck.perform.1, hcheck.perform.2, halias.perform.1, hrelative.perform.1]
    exact ⟨rfl, rfl⟩
  · have hconvert : (convert env .toAlias args false).Does d (.error e) d := hfails _
    have hcheck : (checkCommand env args).Does d (.error e) d :=
      (does_tell _ d).bind_ok (hfails _)
    rw [hcheck.perform.1, hcheck.perform.2, hconvert.perform.1]
    exact ⟨rfl, rfl⟩

/-- A file imports its neighbour: the look tells that one direction would change it, and that is
what the two commands would come to. -/
theorem check_predicts_of_neighbour :
    let d := twoFiles (encode "import './b'".toList) (encode "let x = 1".toList)
    let args : CommandLine.ConfigArgs := { scanRoot := some (.ofString "/p") }
    let previews := [(Direction.toAlias, Summary.mk 2 1 1 1 0), (.toRelative, ⟨2, 0, 0, 0, 0⟩)]
    d.WellFormed ∧ ((checkCommand [] args).perform d).1 = .ok previews ∧
      ((checkCommand [] args).perform d).2.disk = d ∧
      (do
        let a ← ((convert [] .toAlias args false).perform d).1
        let b ← ((convert [] .toRelative args false).perform d).1
        return [(.toAlias, a), (.toRelative, b)]) = Except.ok previews := by
  intro d args previews
  have hd : d.WellFormed := wellFormed_twoFiles _ _
  obtain ⟨hdisk, hsame⟩ := (check_predicts d hd).2 [] args
  have hcheck : ((checkCommand [] args).perform d).1 = .ok previews := by
    subst d args previews
    cbv
  exact ⟨hd, hcheck, hdisk, hsame.symm.trans hcheck⟩

end ImportPaths
