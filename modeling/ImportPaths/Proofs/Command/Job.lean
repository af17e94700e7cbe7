import ImportPaths.Command.Prepare

/-!
# What jobs do to the disk

`job.Does d r d'` says what a job comes to on the disk `d`: the outcome `r`, and the disk `d'`
afterwards.  What was told before plays no part in it.  The rules below follow a job step by step.

* `does_loadConfig`: what the configuration is, is read off the disk as it stands.
* `keeps_prepare`: to find and check the settings never writes.
-/

namespace ImportPaths.Job

variable {α β : Type} {job : Job α} {f : α → Job β} {a : α} {e : CommandError}
variable {d d' d'' : Disk} {r : Except CommandError α} {r' : Except CommandError β}

/-- On the disk `d`, the job has the outcome `r` and leaves the disk `d'`. -/
def Does (job : Job α) (d : Disk) (r : Except CommandError α) (d' : Disk) : Prop :=
  ∀ told, ∃ told', Id.run (StateT.run (ExceptT.run job) ⟨d, told⟩) = (r, ⟨d', told'⟩)

theorem Does.perform (h : job.Does d r d') :
    (job.perform d).1 = r ∧ (job.perform d).2.disk = d' := by
  obtain ⟨told, hrun⟩ := h []
  rw [Job.perform, hrun]
  exact ⟨rfl, rfl⟩

/-! ## Steps -/

theorem does_pure (a : α) (d : Disk) : (pure a : Job α).Does d (.ok a) d :=
  fun told => ⟨told, rfl⟩

theorem does_throw (e : CommandError) (d : Disk) : (throw e : Job α).Does d (.error e) d :=
  fun told => ⟨told, rfl⟩

theorem Does.bind_ok (h : job.Does d (.ok a) d') (hf : (f a).Does d' r' d'') :
    (job >>= f).Does d r' d'' := by
  intro told
  obtain ⟨told', hjob⟩ := h told
  obtain ⟨told'', hrest⟩ := hf told'
  refine ⟨told'', ?_⟩
  rw [← hrest]
  simp only [ExceptT.run_bind, StateT.run_bind, Id.run_bind, hjob]

theorem Does.bind_error (h : job.Does d (.error e) d') : (job >>= f).Does d (.error e) d' := by
  intro told
  obtain ⟨told', hjob⟩ := h told
  refine ⟨told', ?_⟩
  simp only [ExceptT.run_bind, StateT.run_bind, Id.run_bind, hjob]
  rfl

theorem does_tell (n : Terminal.Notice) (d : Disk) : (tell n).Does d (.ok ()) d :=
  fun told => ⟨told ++ [n], rfl⟩

theorem does_disk (d : Disk) : disk.Does d (.ok d) d :=
  fun told => ⟨told, rfl⟩

theorem does_check (r : Except CommandError α) (d : Disk) : (check r).Does d r d := by
  cases r with
  | error e => exact does_throw e d
  | ok a => exact does_pure a d

/-- A run comes to what it says, and leaves what it writes. -/
theorem does_runPass (p : Pass) (change : Change → List Terminal.Notice) (d : Disk) :
    (runPass p change).Does d ((p.run d).result.mapError .run) (p.run d).disk := by
  refine (does_disk d).bind_ok ?_
  have hwrite (told : List Terminal.Notice) : Does (modify fun s : Desk =>
      { disk := (p.run d).disk, notices := s.notices ++ told }) d (.ok ()) (p.run d).disk :=
    fun before => ⟨before ++ told, rfl⟩
  exact (hwrite _).bind_ok (does_check _ _)

theorem does_currentDir (d : Disk) :
    currentDir.Does d (d.currentDir.mapError fun fault =>
      (CommandError.disk fault).context "Failed to get current working directory") d :=
  (does_disk d).bind_ok (does_check _ d)

/-- A file is written as the disk says, or the disk is left as it is. -/
theorem does_writeText_ok {p : Path} {text : List Char} (h : d.writeText p text = .ok d') :
    (writeText p text).Does d (.ok ()) d' := by
  refine (does_disk d).bind_ok ?_
  rw [h]
  exact (does_check _ d).bind_ok fun told => ⟨told, rfl⟩

theorem does_writeText_error {p : Path} {text : List Char} {fault : DiskFault}
    (h : d.writeText p text = .error fault) :
    (writeText p text).Does d (.error ((CommandError.disk fault).withPath p)) d := by
  refine (does_disk d).bind_ok ?_
  rw [h]
  exact (does_check _ d).bind_error

/-- Steps that write nothing, one after the other. -/
theorem Does.bind {g : α → Except CommandError β} (h : job.Does d r d)
    (hf : ∀ a, (f a).Does d (g a) d) : (job >>= f).Does d (r >>= g) d := by
  cases r with
  | error e => exact h.bind_error
  | ok a => exact h.bind_ok (hf a)

/-- Jobs that write nothing, one for each of some things. -/
theorem does_mapM {f : α → Job β} {g : α → Except CommandError β} (hf : ∀ a, (f a).Does d (g a) d)
    (as : List α) : (as.mapM f).Does d (as.mapM g) d := by
  induction as with
  | nil =>
    rw [List.mapM_nil, List.mapM_nil]
    exact does_pure [] d
  | cons a as ih =>
    rw [List.mapM_cons, List.mapM_cons]
    exact (hf a).bind fun b => ih.bind fun bs => does_pure (b :: bs) d

/-- What follows a job without another outcome. -/
theorem Does.bind_same {f : α → Job α} (h : job.Does d r d')
    (hf : ∀ a, (f a).Does d' (.ok a) d') : (job >>= f).Does d r d' := by
  cases r with
  | error e => exact h.bind_error
  | ok a => exact h.bind_ok (hf a)

/-! ## Jobs that write nothing -/

/-- On the disk `d`, the job comes to something and leaves the disk as it is. -/
def Keeps (job : Job α) (d : Disk) : Prop := ∃ r, job.Does d r d

theorem Does.keeps (h : job.Does d r d) : job.Keeps d := ⟨r, h⟩

theorem Keeps.bind (h : job.Keeps d) (hf : ∀ a, (f a).Keeps d) : (job >>= f).Keeps d := by
  obtain ⟨r, hr⟩ := h
  cases r with
  | error e => exact hr.bind_error.keeps
  | ok a =>
    obtain ⟨r', hr'⟩ := hf a
    exact (hr.bind_ok hr').keeps

theorem keeps_currentDir (d : Disk) : currentDir.Keeps d := (does_currentDir d).keeps

/-- The members of the configuration file on a disk; without a file there are none. -/
def configMembers (d : Disk) (args : CommandLine.ConfigArgs) (cwd : Path) :
    Except ConfigError (List (List Char × Json.Value)) :=
  match configFile d args cwd with
  | .error e => .error e
  | .ok none => .ok []
  | .ok (some p) => fileMembers d p

/-- The configuration made of some members and the layers above them. -/
def layered (members : List (List Char × Json.Value)) (env : Environment)
    (args : CommandLine.ConfigArgs) : Except ConfigError Config :=
  match Config.ofLayers? members env args with
  | some c => .ok c
  | none => .error (.load "a field is unknown or has a value of the wrong type")

/-- The configuration on a disk. -/
def configOn (d : Disk) (env : Environment) (args : CommandLine.ConfigArgs) (cwd : Path) :
    Except ConfigError Config :=
  match configMembers d args cwd with
  | .error e => .error e
  | .ok members => layered members env args

/-- To load the configuration is to read it off the disk. -/
theorem does_loadConfig (env : Environment) (args : CommandLine.ConfigArgs) (cwd : Path)
    (d : Disk) :
    (loadConfig env args cwd).Does d ((configOn d env args cwd).mapError .config) d := by
  have hlayers (members : List (List Char × Json.Value)) :
      Does (match Config.ofLayers? members env args with
        | some c => pure c
        | none => throw (.config (.load "a field is unknown or has a value of the wrong type"))) d
        ((layered members env args).mapError .config) d := by
    rw [layered]
    cases Config.ofLayers? members env args with
    | none => exact does_throw _ d
    | some c => exact does_pure c d
  refine (does_disk d).bind_ok ?_
  rw [configOn, configMembers]
  rcases hfile : configFile d args cwd with e | _ | p
  · exact (does_check _ d).bind_error
  · exact (does_check _ d).bind_ok ((does_pure [] d).bind_ok (hlayers []))
  · refine (does_check _ d).bind_ok ((does_tell _ d).bind_ok ?_)
    dsimp only
    cases fileMembers d p with
    | error e => exact (does_check _ d).bind_error
    | ok members => exact (does_check _ d).bind_ok (hlayers members)

theorem keeps_prepare (env : Environment) (args : CommandLine.ConfigArgs) (cwd : Path) (d : Disk) :
    (prepare env args cwd).Keeps d := by
  refine (does_loadConfig env args cwd d).keeps.bind fun c => (does_check _ d).keeps.bind fun _ =>
    (does_disk d).keeps.bind fun disk => (does_check _ d).keeps.bind fun _ =>
    (does_check _ d).keeps.bind fun _ => ?_
  split
  · exact (does_tell _ d).keeps.bind fun _ => (does_pure _ d).keeps
  · exact (does_pure _ d).keeps

/-- Before anything is written, a command has its settings, or it has failed whatever it goes on
with. -/
theorem prepared_or_fails (env : Environment) (args : CommandLine.ConfigArgs) (d : Disk) :
    (∃ cwd s, currentDir.Does d (.ok cwd) d ∧ (prepare env args cwd).Does d (.ok s) d) ∨
      ∃ e, ∀ {β : Type} (f : Path → Settings → Job β),
        (currentDir >>= fun cwd => prepare env args cwd >>= f cwd).Does d (.error e) d := by
  obtain ⟨cwd?, hcwd⟩ := keeps_currentDir d
  cases cwd? with
  | error e => exact .inr ⟨e, fun f => hcwd.bind_error⟩
  | ok cwd =>
    obtain ⟨s?, hs⟩ := keeps_prepare env args cwd d
    cases s? with
    | error e => exact .inr ⟨e, fun f => hcwd.bind_ok hs.bind_error⟩
    | ok s => exact .inl ⟨cwd, s, hcwd, hs⟩

end ImportPaths.Job
