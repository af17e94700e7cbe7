import ImportPaths.Command.Init
import ImportPaths.Proofs.Command.Job
import ImportPaths.Proofs.Disk.Placed
import Mathlib

/-!
# Writing a first configuration

The command that writes a first configuration looks at one path before it writes, but it may write
two files, the schema first.  `Inits` lists what it can come to, each outcome with the disk that it
leaves, and the command always comes to one of them (`exists_inits`).  All else follows from where
the schema is written, if it is (`WritesSchemaAt`):

* without force the files that were there keep their bytes, but for one in the place of the schema,
  which is lost (`init_without_force`, `schema_overwritten`);
* a failed command leaves the disk as it was, but for a schema that was written before the
  configuration could not be (`init_failed`, `schema_left_behind`).
-/

namespace ImportPaths

open Job CommandLine

variable {args : InitArgs} {d d' : Disk} {cwd : Path} {place : Place}

/-! ## What the command does -/

theorem does_writeAndTell_ok {p : Path} {text : List Char} (cwd : Path)
    (h : d.writeText p text = .ok d') : (writeAndTell p cwd text).Does d (.ok ()) d' :=
  (does_writeText_ok h).bind_ok (does_tell _ d')

theorem does_writeAndTell_error {p : Path} {text : List Char} {fault : DiskFault} (cwd : Path)
    (h : d.writeText p text = .error fault) :
    (writeAndTell p cwd text).Does d (.error ((CommandError.disk fault).withPath p)) d :=
  (does_writeText_error h).bind_error

/-- The path of the configuration that is written from `cwd`. -/
def configPath (args : InitArgs) (cwd : Path) : Path := cwd.join args.path

/-- The path of the schema beside it. -/
def schemaPath (args : InitArgs) (cwd : Path) : Path :=
  (configPath args cwd).withFileName Config.schemaFileName

/-- What the configuration says. -/
def configText (args : InitArgs) : List Char :=
  Config.exampleText (if args.schema then some (sameMark ++ Config.schemaFileName) else none)

/-- One stands in a directory, and the configuration may be written. -/
structure Starts (args : InitArgs) (d : Disk) (cwd : Path) : Prop where
  stands : d.currentDir = .ok cwd
  allowed : d.holds (configPath args cwd) = true → args.force = true

/-- The disk before the configuration is written: the schema is there if it was asked for. -/
def SchemaStep (args : InitArgs) (d : Disk) (cwd : Path) (d' : Disk) : Prop :=
  if args.schema then d.writeText (schemaPath args cwd) Config.schemaText = .ok d' else d' = d

/-- The outcomes of the command, each with the disk that it leaves. -/
inductive Inits (args : InitArgs) (d : Disk) : Except CommandError Path → Disk → Prop
  /-- One stands in a directory that was removed. -/
  | nowhere {fault : DiskFault} (h : d.currentDir = .error fault) :
      Inits args d (.error
        ((CommandError.disk fault).context "Failed to get current working directory")) d
  | taken {cwd : Path} (h : d.currentDir = .ok cwd) (hholds : d.holds (configPath args cwd) = true)
      (hforce : args.force = false) :
      Inits args d (.error (.config (.alreadyExists (configPath args cwd)))) d
  | schemaFails {cwd : Path} {fault : DiskFault} (h : Starts args d cwd)
      (hschema : args.schema = true)
      (hfault : d.writeText (schemaPath args cwd) Config.schemaText = .error fault) :
      Inits args d (.error ((CommandError.disk fault).withPath (schemaPath args cwd))) d
  | configFails {cwd : Path} {fault : DiskFault} {d₁ : Disk} (h : Starts args d cwd)
      (hschema : SchemaStep args d cwd d₁)
      (hfault : d₁.writeText (configPath args cwd) (configText args) = .error fault) :
      Inits args d (.error ((CommandError.disk fault).withPath (configPath args cwd))) d₁
  | written {cwd : Path} {d₁ d₂ : Disk} (h : Starts args d cwd)
      (hschema : SchemaStep args d cwd d₁)
      (hwrite : d₁.writeText (configPath args cwd) (configText args) = .ok d₂) :
      Inits args d (.ok (configPath args cwd)) d₂

/-- Once the schema is dealt with, the configuration is written, or it cannot be. -/
theorem exists_does_config {d₁ : Disk} (h : Starts args d cwd) (hs : SchemaStep args d cwd d₁) :
    ∃ r d', (do
        writeAndTell (configPath args cwd) cwd (configText args)
        Job.status .info "Run 'reroot check' to preview pending rewrites"
        return configPath args cwd : Job Path).Does d₁ r d' ∧ Inits args d r d' := by
  rcases hwrite : d₁.writeText (configPath args cwd) (configText args) with fault | d'
  · exact ⟨_, _, (does_writeAndTell_error cwd hwrite).bind_error, .configFails h hs hwrite⟩
  · exact ⟨_, _, (does_writeAndTell_ok cwd hwrite).bind_ok
      ((does_tell _ d').bind_ok (does_pure _ d')), .written h hs hwrite⟩

/-- The schema is written if it was asked for, and then the configuration. -/
theorem exists_does_files (h : Starts args d cwd) :
    ∃ r d', (do
        if args.schema then writeAndTell (schemaPath args cwd) cwd Config.schemaText
        writeAndTell (configPath args cwd) cwd (configText args)
        Job.status .info "Run 'reroot check' to preview pending rewrites"
        return configPath args cwd : Job Path).Does d r d' ∧ Inits args d r d' := by
  rcases hschema : args.schema with _ | _
  · rw [if_neg Bool.false_ne_true]
    exact exists_does_config h (by simp [SchemaStep, hschema])
  · rw [if_pos rfl]
    rcases hwrite : d.writeText (schemaPath args cwd) Config.schemaText with fault | d₁
    · exact ⟨_, d, (does_writeAndTell_error cwd hwrite).bind_error, .schemaFails h hschema hwrite⟩
    · obtain ⟨r, d', hdoes, hinits⟩ :=
        exists_does_config h (by simpa [SchemaStep, hschema] using hwrite)
      exact ⟨r, d', (does_writeAndTell_ok cwd hwrite).bind_ok hdoes, hinits⟩

/-- The command comes to one of these outcomes. -/
theorem exists_inits (args : InitArgs) (d : Disk) :
    ∃ r d', (initCommand args).Does d r d' ∧ Inits args d r d' := by
  have hcwd := does_currentDir d
  rcases hdir : d.currentDir with fault | cwd
  · rw [hdir] at hcwd
    exact ⟨_, _, hcwd.bind_error, .nowhere hdir⟩
  rw [hdir] at hcwd
  have hrun {r : Except CommandError Path} {d' : Disk} (h : (do
        if d.holds (configPath args cwd) && !args.force then
          throw (CommandError.config (.alreadyExists (configPath args cwd)))
        if args.schema then writeAndTell (schemaPath args cwd) cwd Config.schemaText
        writeAndTell (configPath args cwd) cwd (configText args)
        Job.status .info "Run 'reroot check' to preview pending rewrites"
        return configPath args cwd : Job Path).Does d r d') : (initCommand args).Does d r d' :=
    hcwd.bind_ok ((does_disk d).bind_ok h)
  by_cases hstop : (d.holds (configPath args cwd) && !args.force) = true
  · have htaken : d.holds (configPath args cwd) = true ∧ args.force = false := by
      simpa using hstop
    refine ⟨_, d, hrun ?_, .taken hdir htaken.1 htaken.2⟩
    rw [if_pos hstop]
    exact (does_throw _ d).bind_error
  · have hstart : Starts args d cwd := ⟨hdir, fun hholds => by simpa [hholds] using hstop⟩
    obtain ⟨r, d', hdoes, hinits⟩ := exists_does_files hstart
    refine ⟨r, d', hrun ?_, hinits⟩
    rw [if_neg hstop]
    exact hdoes

/-! ## The schema on the way -/

/-- The schema is written at a place: it was asked for, nothing stops the command before, and its
path leads there. -/
structure WritesSchemaAt (args : InitArgs) (d : Disk) (cwd : Path) (place : Place) : Prop
    extends Starts args d cwd where
  asked : args.schema = true
  goes : d.writePlace (schemaPath args cwd) = .ok place

variable {r : Except CommandError Path}

/-- One starts in one directory only. -/
theorem Starts.eq {cwd' : Path} (h : Starts args d cwd) (h' : Starts args d cwd') : cwd = cwd' :=
  Except.ok.inj (h.stands.symm.trans h'.stands)

theorem SchemaStep.writesSchemaAt {d₁ : Disk} (hstart : Starts args d cwd)
    (h : SchemaStep args d cwd d₁) (hschema : args.schema = true) :
    ∃ place, WritesSchemaAt args d cwd place ∧ d₁ = d.withText place Config.schemaText := by
  rw [SchemaStep, if_pos hschema] at h
  obtain ⟨place, hplace, rfl⟩ := Disk.writeText_eq_ok_iff.1 h
  exact ⟨place, ⟨hstart, hschema, hplace⟩, rfl⟩

/-- Once the schema is written, the configuration is written as well, or it cannot be. -/
theorem Inits.of_writes (hd : d.Grounded) (h : Inits args d r d')
    (hw : WritesSchemaAt args d cwd place) :
    (∃ fault, d.writePlace (configPath args cwd) = .error fault ∧ (∃ e, r = .error e) ∧
      d' = d.withText place Config.schemaText) ∨
    ∃ q, d.writePlace (configPath args cwd) = .ok q ∧ r = .ok (configPath args cwd) ∧
      d' = (d.withText place Config.schemaText).withText q (configText args) := by
  have hstep {d₁ : Disk} (hs : SchemaStep args d cwd d₁) :
      d₁ = d.withText place Config.schemaText := by
    obtain ⟨place', hplace, rfl⟩ := hs.writesSchemaAt hw.toStarts hw.asked
    obtain rfl : place' = place := Except.ok.inj (hplace.goes.symm.trans hw.goes)
    rfl
  cases h with
  | nowhere h => cases h.symm.trans hw.stands
  | taken h hholds hforce =>
    obtain rfl := Except.ok.inj (h.symm.trans hw.stands)
    rw [hw.allowed hholds] at hforce
    cases hforce
  | schemaFails h hschema hfault =>
    obtain rfl := h.eq hw.toStarts
    cases (Disk.writeText_eq_error_iff.1 hfault).symm.trans hw.goes
  | configFails h hs hfault =>
    obtain rfl := h.eq hw.toStarts
    obtain rfl := hstep hs
    left
    cases hplace : d.writePlace (configPath args _) with
    | error fault => exact ⟨fault, rfl, ⟨_, rfl⟩, rfl⟩
    | ok q =>
      rw [Disk.writeText_eq_error_iff] at hfault
      cases hfault.symm.trans ((hd.writePlace_withText hw.goes).2 hplace)
  | written h hs hwrite =>
    obtain rfl := h.eq hw.toStarts
    obtain rfl := hstep hs
    obtain ⟨q, hq, rfl⟩ := Disk.writeText_eq_ok_iff.1 hwrite
    exact .inr ⟨q, (hd.writePlace_withText hw.goes).1 hq, rfl, rfl⟩

/-- Without the schema only the configuration is written, or nothing. -/
theorem Inits.of_not_writes (h : Inits args d r d')
    (hw : ∀ cwd place, ¬WritesSchemaAt args d cwd place) :
    (∃ e, r = .error e) ∧ d' = d ∨
    ∃ cwd q, Starts args d cwd ∧ d.writePlace (configPath args cwd) = .ok q ∧
      r = .ok (configPath args cwd) ∧ d' = d.withText q (configText args) := by
  have hstep {cwd : Path} {d₁ : Disk} (hstart : Starts args d cwd)
      (hs : SchemaStep args d cwd d₁) : d₁ = d := by
    by_cases hschema : args.schema = true
    · obtain ⟨place, hplace, -⟩ := hs.writesSchemaAt hstart hschema
      exact absurd hplace (hw _ _)
    · rwa [SchemaStep, if_neg hschema] at hs
  cases h with
  | nowhere h => exact .inl ⟨⟨_, rfl⟩, rfl⟩
  | taken h hholds hforce => exact .inl ⟨⟨_, rfl⟩, rfl⟩
  | schemaFails h hschema hfault => exact .inl ⟨⟨_, rfl⟩, rfl⟩
  | configFails h hs hfault => exact .inl ⟨⟨_, rfl⟩, hstep h hs⟩
  | written h hs hwrite =>
    obtain rfl := hstep h hs
    obtain ⟨q, hq, rfl⟩ := Disk.writeText_eq_ok_iff.1 hwrite
    exact .inr ⟨_, q, h, hq, rfl, rfl⟩

/-! ## What is left of what was there -/

section WithoutForce

variable {bytes : ByteArray}

/-- The configuration does not touch a file that was there. -/
theorem Starts.ne_of_file (hd : d.Grounded) (h : Starts args d cwd) (hforce : args.force = false)
    (hfile : d.root.get? place = some (.file bytes)) {q : Place}
    (hq : d.writePlace (configPath args cwd) = .ok q) : place ≠ q := by
  rintro rfl
  have hholds : d.holds (configPath args cwd) = false := by
    by_contra hholds
    rw [h.allowed (by simpa using hholds)] at hforce
    cases hforce
  cases hfile.symm.trans (hd.get?_of_not_holds hholds hq)

/-- What stands at the place of a file once the schema is written stays there. -/
theorem Inits.get?_of_writes (hd : d.Grounded) (h : Inits args d r d') (hforce : args.force = false)
    (hfile : d.root.get? place = some (.file bytes)) {q : Place}
    (hw : WritesSchemaAt args d cwd q) {b : ByteArray}
    (hb : (d.withText q Config.schemaText).root.get? place = some (.file b)) :
    d'.root.get? place = some (.file b) := by
  rcases h.of_writes hd hw with ⟨-, -, -, rfl⟩ | ⟨q', hq', -, rfl⟩
  · exact hb
  · have hne := hw.toStarts.ne_of_file hd hforce hfile hq'
    exact ((hd.withText hw.goes _).get?_withText_iff ((hd.writePlace_withText hw.goes).2 hq')
      hne).2 hb

/-- The schema is written over the file that stands at its place. -/
theorem Inits.overwritten (hd : d.Grounded) (h : Inits args d r d') (hforce : args.force = false)
    (hfile : d.root.get? place = some (.file bytes)) (hw : WritesSchemaAt args d cwd place) :
    d'.root.get? place = some (.file (encode Config.schemaText)) :=
  h.get?_of_writes hd hforce hfile hw (hd.gains_withText hw.goes _).written

/-- Every other file keeps its bytes. -/
theorem Inits.kept (hd : d.Grounded) (h : Inits args d r d') (hforce : args.force = false)
    (hfile : d.root.get? place = some (.file bytes))
    (hnot : ∀ cwd, ¬WritesSchemaAt args d cwd place) :
    d'.root.get? place = some (.file bytes) := by
  by_cases hw : ∃ cwd q, WritesSchemaAt args d cwd q
  · obtain ⟨cwd, q, hw⟩ := hw
    have hne : place ≠ q := by
      rintro rfl
      exact hnot cwd hw
    exact h.get?_of_writes hd hforce hfile hw ((hd.get?_withText_iff hw.goes hne).2 hfile)
  · simp only [not_exists] at hw
    rcases h.of_not_writes hw with ⟨-, rfl⟩ | ⟨cwd, q, hstart, hq, -, rfl⟩
    · exact hfile
    · exact (hd.get?_withText_iff hq (hstart.ne_of_file hd hforce hfile hq)).2 hfile

end WithoutForce

/-- Without force a file keeps its bytes, but for one that stands where the schema is written: it
holds the schema afterwards. -/
theorem init_without_force (args : InitArgs) (d : Disk) (hd : d.WellFormed)
    (hforce : args.force = false) (place : Place) (bytes : ByteArray)
    (hfile : d.root.get? place = some (.file bytes)) :
    let d' := ((initCommand args).perform d).2.disk
    ((∀ cwd, ¬WritesSchemaAt args d cwd place) → d'.root.get? place = some (.file bytes)) ∧
      ∀ cwd, WritesSchemaAt args d cwd place →
        d'.root.get? place = some (.file (encode Config.schemaText)) := by
  obtain ⟨r, d', hdoes, hinits⟩ := exists_inits args d
  rw [hdoes.perform.2]
  exact ⟨hinits.kept hd.grounded hforce hfile,
    fun cwd => hinits.overwritten hd.grounded hforce hfile⟩

/-- A disk with some files and empty directories at its top. -/
def topDisk (entries : List (Segment × Node)) : Disk where
  root := .directory entries

theorem wellFormed_topDisk {entries : List (Segment × Node)}
    (hnames : (entries.map Prod.fst).Nodup ∧ ∀ e ∈ entries, isPlainSegment e.1 = true ∧ '/' ∉ e.1)
    (hnodes : ∀ e ∈ entries, e.2.WellFormed) : (topDisk entries).WellFormed :=
  ⟨rfl, .directory hnames.1 (fun e he => ⟨(hnames.2 e he).1, (hnames.2 e he).2⟩) hnodes,
    ⟨entries, rfl⟩⟩

/-- Where a configuration is there, the schema beside it is left as well. -/
theorem init_without_force_refused :
    let d := topDisk [(configFileName, .file .empty), (Config.schemaFileName, .file .empty)]
    let args : InitArgs := { path := ⟨configFileName⟩, schema := true }
    d.WellFormed ∧ args.force = false ∧
      d.root.get? [Config.schemaFileName] = some (.file .empty) ∧
      ((initCommand args).perform d).2.disk.root.get? [Config.schemaFileName] =
        some (.file .empty) := by
  intro d args
  have hd : d.WellFormed := wellFormed_topDisk (by decide) (by simp [Node.WellFormed.file])
  have hfile : d.root.get? [Config.schemaFileName] = some (.file .empty) := rfl
  refine ⟨hd, rfl, hfile, (init_without_force args d hd rfl _ _ hfile).1 ?_⟩
  intro cwd hw
  obtain rfl : Path.ofString "/" = cwd := Except.ok.inj hw.stands
  have hholds : d.holds (configPath args (.ofString "/")) = true := by
    subst d args
    cbv
  cases hw.allowed hholds

/-- So a schema that is there is lost, whatever it said. -/
theorem schema_overwritten :
    let mine := encode "mine".toList
    let d := topDisk [(Config.schemaFileName, .file mine)]
    let args : InitArgs := { path := ⟨configFileName⟩, schema := true }
    d.WellFormed ∧ args.force = false ∧ d.root.get? [Config.schemaFileName] = some (.file mine) ∧
      ((initCommand args).perform d).2.disk.root.get? [Config.schemaFileName] ≠
        some (.file mine) := by
  intro mine d args
  have hd : d.WellFormed := wellFormed_topDisk (by decide) (by simp [Node.WellFormed.file])
  have hfile : d.root.get? [Config.schemaFileName] = some (.file mine) := rfl
  have hw : WritesSchemaAt args d (.ofString "/") [Config.schemaFileName] := by
    have hholds : d.holds (configPath args (.ofString "/")) = false := by
      subst d args
      cbv
    have hgoes : d.writePlace (schemaPath args (.ofString "/")) = .ok [Config.schemaFileName] := by
      subst d args
      cbv
    exact ⟨⟨rfl, fun h => by rw [hholds] at h; cases h⟩, rfl, hgoes⟩
  obtain ⟨r, d', hdoes, hinits⟩ := exists_inits args d
  refine ⟨hd, rfl, hfile, ?_⟩
  rw [hdoes.perform.2, hinits.overwritten hd.grounded rfl hfile hw]
  intro hsame
  have htext : Config.schemaText = "mine".toList :=
    encode_injective (Node.file.inj (Option.some.inj hsame))
  have hhead : Config.schemaText.head? = some '{' := rfl
  cases hhead.symm.trans (congrArg List.head? htext)

/-- A failed command leaves the disk as it was, unless the schema was written before it failed: then
the configuration could not be written, and the disk is as it was but for the schema. -/
theorem init_failed (args : InitArgs) (d : Disk) (hd : d.WellFormed) (e : CommandError)
    (h : ((initCommand args).perform d).1 = .error e) :
    let d' := ((initCommand args).perform d).2.disk
    ((∀ cwd place, ¬WritesSchemaAt args d cwd place) → d' = d) ∧
      ∀ cwd place, WritesSchemaAt args d cwd place →
        (∃ fault, d.writePlace (configPath args cwd) = .error fault) ∧
        d' = d.withText place Config.schemaText ∧
        (d' = d ↔ d.root.get? place = some (.file (encode Config.schemaText))) ∧
        ∀ q ≠ place, ∀ bytes, d'.root.get? q = some (.file bytes) ↔
          d.root.get? q = some (.file bytes) := by
  obtain ⟨r, d', hdoes, hinits⟩ := exists_inits args d
  rw [hdoes.perform.1] at h
  rw [hdoes.perform.2]
  subst h
  refine ⟨fun hw => ?_, fun cwd place hw => ?_⟩
  · rcases hinits.of_not_writes hw with ⟨-, rfl⟩ | ⟨_, _, _, _, hr, _⟩
    · rfl
    · cases hr
  · rcases hinits.of_writes hd.grounded hw with ⟨fault, hfault, -, rfl⟩ | ⟨_, _, hr, _⟩
    · exact ⟨⟨fault, hfault⟩, rfl, hd.withText_eq_self_iff hw.goes,
        fun q hq bytes => hd.grounded.get?_withText_iff hw.goes hq⟩
    · cases hr

/-- A directory that is missing: neither file can be written, and nothing is left. -/
theorem init_failed_missing_directory :
    let d := topDisk []
    let args : InitArgs := { path := .ofString "conf/x.json", schema := true }
    ∃ e, d.WellFormed ∧ ((initCommand args).perform d).1 = .error e ∧
      ((initCommand args).perform d).2.disk = d := by
  intro d args
  have hd : d.WellFormed := wellFormed_topDisk (by decide) (by simp)
  have hschema : d.writePlace (schemaPath args (.ofString "/")) = .error .notFound := by
    subst d args
    cbv
  have hconfig : d.writePlace (configPath args (.ofString "/")) = .error .notFound := by
    subst d args
    cbv
  have hnot : ∀ cwd place, ¬WritesSchemaAt args d cwd place := by
    intro cwd place hw
    obtain rfl : Path.ofString "/" = cwd := Except.ok.inj hw.stands
    cases hschema.symm.trans hw.goes
  obtain ⟨r, d', hdoes, hinits⟩ := exists_inits args d
  rcases hinits.of_not_writes hnot with ⟨⟨e, rfl⟩, -⟩ | ⟨cwd, q, hstart, hq, -⟩
  · exact ⟨e, hd, hdoes.perform.1, (init_failed args d hd e hdoes.perform.1).1 hnot⟩
  · obtain rfl : Path.ofString "/" = cwd := Except.ok.inj hstart.stands
    cases hconfig.symm.trans hq

/-- So a schema can be left without its configuration. -/
theorem schema_left_behind :
    let d := topDisk [("conf".toList, .directory [])]
    let args : InitArgs := { path := .ofString "conf", force := true, schema := true }
    d.WellFormed ∧ (∃ e, ((initCommand args).perform d).1 = .error e) ∧
      ((initCommand args).perform d).2.disk ≠ d := by
  intro d args
  have hd : d.WellFormed :=
    wellFormed_topDisk (by decide) (by simpa using .directory (by simp) (by simp) (by simp))
  have hw : WritesSchemaAt args d (.ofString "/") [Config.schemaFileName] := by
    have hgoes : d.writePlace (schemaPath args (.ofString "/")) = .ok [Config.schemaFileName] := by
      subst d args
      cbv
    exact ⟨⟨rfl, fun _ => rfl⟩, rfl, hgoes⟩
  have hfault : d.writePlace (configPath args (.ofString "/")) = .error .isDirectory := by
    subst d args
    cbv
  obtain ⟨r, d', hdoes, hinits⟩ := exists_inits args d
  rw [hdoes.perform.1, hdoes.perform.2]
  rcases hinits.of_writes hd.grounded hw with ⟨-, -, herror, rfl⟩ | ⟨q, hq, -⟩
  · refine ⟨hd, herror, fun hsame => ?_⟩
    cases (hd.withText_eq_self_iff hw.goes).1 hsame
  · cases hq.symm.trans hfault

end ImportPaths
