import ImportPaths.Proofs.Command.Job
import ImportPaths.Proofs.Token.Kept
import Mathlib.Data.List.Forall2

/-!
# One set of rules for values

The values of a configuration are checked where they are read from a command line, again when the
configuration is put together, and once more as settings of a run.  The three agree: a configuration
passes its check exactly when each of its values can be read (`check_eq_ok_iff`), its settings then
hold what was read, and pass theirs (`check_toSettings`).  It makes no difference whether a value
was already read when it got into the configuration (`check_of_taken`, `toSettings_of_taken`).
-/

namespace ImportPaths.Config

variable {c : Config} {cwd : Path} {written exts : List (List Char)} {token : List Char}

/-! ## Values that can be read -/

/-- Extensions as they were written, and what they are read as, one by one. -/
abbrev ReadAs (written exts : List (List Char)) : Prop :=
  List.Forall₂ (fun w e => Extension.parse w = .ok e) written exts

theorem ReadAs.eq_map (h : ReadAs written exts) : exts = written.map Extension.normalize := by
  induction h with
  | nil => rfl
  | cons hparse _ ih => rw [List.map_cons, (Extension.parse_eq_ok_iff.1 hparse).1, ← ih]

theorem readAs_map_iff :
    ReadAs written (written.map Extension.normalize) ↔
      ∀ w ∈ written, ∃ e, Extension.parse w = .ok e := by
  rw [ReadAs, List.forall₂_map_right_iff, List.forall₂_same]
  refine forall₂_congr fun w _ => ⟨fun h => ⟨_, h⟩, ?_⟩
  rintro ⟨e, he⟩
  rw [he, (Extension.parse_eq_ok_iff.1 he).1]

/-- Extensions that were read are read as themselves. -/
theorem ReadAs.again (h : ReadAs written exts) : ReadAs exts exts := by
  induction h with
  | nil => exact .nil
  | cons hparse _ ih => exact .cons (Extension.parse_of_parse hparse) ih

/-- None of the extensions that were read is dropped. -/
theorem ReadAs.filter_eq (h : ReadAs written exts) : exts.filter (!·.isEmpty) = exts := by
  induction h with
  | nil => rfl
  | cons hparse _ ih =>
    rw [List.filter_cons_of_pos, ih]
    simpa using (Extension.parse_eq_ok_iff.1 hparse).2.1

/-! ## The check of a configuration -/

theorem checkExtension_eq_ok_iff {w : List Char} :
    checkExtension w = .ok () ↔ ∃ e, Extension.parse w = .ok e := by
  rw [checkExtension]
  cases Extension.parse w <;> simp

theorem checkAlias_eq_ok_iff :
    checkAlias token = .ok () ↔ ∃ t, AliasToken.parse token = .ok t := by
  rw [checkAlias]
  cases AliasToken.parse token <;> simp

theorem forM_checkExtension_eq_ok_iff :
    written.forM checkExtension = .ok () ↔ ∀ w ∈ written, ∃ e, Extension.parse w = .ok e := by
  induction written with
  | nil => simp [pure, Except.pure]
  | cons w written ih =>
    rw [List.forall_mem_cons, ← ih, ← checkExtension_eq_ok_iff]
    show (checkExtension w >>= fun _ => written.forM checkExtension) = .ok () ↔ _
    cases checkExtension w <;> simp [bind, Except.bind]

theorem ReadAs.forM_eq (h : ReadAs written exts) : written.forM checkExtension = .ok () := by
  rw [forM_checkExtension_eq_ok_iff, ← readAs_map_iff, ← h.eq_map]
  exact h

/-- A configuration passes exactly when it has extensions and each of its values can be read. -/
theorem check_eq_ok_iff :
    c.check = .ok () ↔ c.extensions ≠ [] ∧ (∀ w ∈ c.extensions, ∃ e, Extension.parse w = .ok e) ∧
      ∃ t, AliasToken.parse c.aliasPrefix = .ok t := by
  rw [← forM_checkExtension_eq_ok_iff, ← checkAlias_eq_ok_iff]
  unfold check
  split
  · rename_i hempty
    simp [List.isEmpty_iff.1 hempty]
  · rename_i hempty
    rw [List.isEmpty_iff] at hempty
    cases c.extensions.forM checkExtension <;> simp [bind, Except.bind, hempty]

/-! ## Settings -/

theorem extensions_toSettings (c : Config) (cwd : Path) :
    (c.toSettings cwd).extensions =
      (c.extensions.map Extension.normalize).filter (!·.isEmpty) := rfl

theorem token_toSettings (c : Config) (cwd : Path) :
    (c.toSettings cwd).token = AliasToken.normalize c.aliasPrefix := rfl

/-- The settings of a configuration that passes hold what its values are read as, -/
theorem readAs_toSettings (h : c.check = .ok ()) (cwd : Path) :
    ReadAs c.extensions (c.toSettings cwd).extensions ∧
      AliasToken.parse c.aliasPrefix = .ok (c.toSettings cwd).token := by
  obtain ⟨-, hexts, t, ht⟩ := check_eq_ok_iff.1 h
  have hread := readAs_map_iff.2 hexts
  refine ⟨?_, ?_⟩
  · rw [extensions_toSettings, hread.filter_eq]
    exact hread
  · rw [token_toSettings, (AliasToken.parse_eq_ok_iff.1 ht).1]
    exact ht

/-- and pass too. -/
theorem check_toSettings (h : c.check = .ok ()) (cwd : Path) :
    (c.toSettings cwd).check = .ok () := by
  obtain ⟨hexts, htoken⟩ := readAs_toSettings h cwd
  refine Settings.check_eq_ok_iff.2 ⟨?_, (AliasToken.parse_eq_ok_iff.1 htoken).2⟩
  intro hnil
  rw [hnil] at hexts
  exact (check_eq_ok_iff.1 h).1 (List.forall₂_nil_right_iff.1 hexts)

/-! ## Values that were read before -/

/-- With some of its values as they are read, a configuration passes where it did, and fails with
the same words, -/
theorem check_of_taken (hexts : exts = c.extensions ∨ ReadAs c.extensions exts)
    (htoken : token = c.aliasPrefix ∨ AliasToken.parse c.aliasPrefix = .ok token) :
    check { c with extensions := exts, aliasPrefix := token } = c.check := by
  have hlist : exts.isEmpty = c.extensions.isEmpty ∧
      exts.forM checkExtension = c.extensions.forM checkExtension := by
    rcases hexts with rfl | hread
    · exact ⟨rfl, rfl⟩
    · refine ⟨?_, hread.again.forM_eq.trans hread.forM_eq.symm⟩
      rw [Bool.eq_iff_iff, List.isEmpty_iff_length_eq_zero, List.isEmpty_iff_length_eq_zero,
        hread.length_eq]
  have halias : checkAlias token = checkAlias c.aliasPrefix := by
    rcases htoken with rfl | hparse
    · rfl
    · have hvalid := (AliasToken.parse_eq_ok_iff.1 hparse).2
      rw [checkAlias_eq_ok_iff.2 ⟨_, hparse⟩,
        checkAlias_eq_ok_iff.2 ⟨_, AliasToken.parse_of_valid hvalid⟩]
  rw [check, check, hlist.1, hlist.2, halias]

/-- and has the same settings. -/
theorem toSettings_of_taken (hexts : exts = c.extensions ∨ ReadAs c.extensions exts)
    (htoken : token = c.aliasPrefix ∨ AliasToken.parse c.aliasPrefix = .ok token) (cwd : Path) :
    toSettings { c with extensions := exts, aliasPrefix := token } cwd = c.toSettings cwd := by
  have hlist : exts.map Extension.normalize = c.extensions.map Extension.normalize := by
    rcases hexts with rfl | hread
    · rfl
    · rw [← hread.eq_map, ← hread.again.eq_map]
  have halias : AliasToken.normalize token = AliasToken.normalize c.aliasPrefix := by
    rcases htoken with rfl | hparse
    · rfl
    · obtain ⟨hnorm, hvalid⟩ := AliasToken.parse_eq_ok_iff.1 hparse
      rw [hnorm, AliasToken.normalize_of_valid hvalid]
  simp only [toSettings, Settings.withExtensions, Settings.withToken, hlist, halias]

/-! ## All together -/

/-- To prepare a run is to load the configuration, check its values and look for its directories:
that the settings are checked once more makes no difference. -/
theorem does_prepare (env : Environment) (args : CommandLine.ConfigArgs) (cwd : Path) (d : Disk) :
    (prepare env args cwd).Does d (do
      let c ← (Job.configOn d env args cwd).mapError .config
      c.check.mapError .config
      checkRoots d (c.toSettings cwd)
      return c.toSettings cwd) d := by
  refine (Job.does_loadConfig env args cwd d).bind ?_
  intro c
  cases hcheck : c.check with
  | error e => exact (Job.does_check _ d).bind_error
  | ok u =>
    refine (Job.does_check _ d).bind_ok ((Job.does_disk d).bind_ok ((Job.does_check _ d).bind ?_))
    intro u
    rw [check_toSettings hcheck]
    refine (Job.does_check _ d).bind_ok ?_
    split
    · exact (Job.does_tell _ d).bind_ok (Job.does_pure _ d)
    · exact Job.does_pure _ d

/-- A configuration passes its check exactly when it has extensions and the command line would take
each of its values.  Its settings then hold what the command line would read, in the same order and
number, and pass their own check, so that preparing a run cannot fail there.  And where the command
line did read some of the values before, nothing changes. -/
theorem check_agrees (c : Config) (cwd : Path) :
    (c.check = .ok () ↔ c.extensions ≠ [] ∧
      (∀ w ∈ c.extensions, ∃ e, Extension.parse w = .ok e) ∧
      ∃ t, AliasToken.parse c.aliasPrefix = .ok t) ∧
    (c.check = .ok () →
      List.Forall₂ (fun w e => Extension.parse w = .ok e) c.extensions
        (c.toSettings cwd).extensions ∧
      AliasToken.parse c.aliasPrefix = .ok (c.toSettings cwd).token ∧
      (c.toSettings cwd).check = .ok ()) ∧
    (∀ env args d, ((prepare env args cwd).perform d).1 = do
      let c ← ((loadConfig env args cwd).perform d).1
      c.check.mapError .config
      checkRoots d (c.toSettings cwd)
      return c.toSettings cwd) ∧
    ∀ exts token,
      (exts = c.extensions ∨
        List.Forall₂ (fun w e => Extension.parse w = .ok e) c.extensions exts) →
      (token = c.aliasPrefix ∨ AliasToken.parse c.aliasPrefix = .ok token) →
      check { c with extensions := exts, aliasPrefix := token } = c.check ∧
      toSettings { c with extensions := exts, aliasPrefix := token } cwd = c.toSettings cwd := by
  refine ⟨check_eq_ok_iff, ?_, ?_, ?_⟩
  · intro h
    obtain ⟨hexts, htoken⟩ := readAs_toSettings h cwd
    exact ⟨hexts, htoken, check_toSettings h cwd⟩
  · intro env args d
    rw [(does_prepare env args cwd d).perform.1, (Job.does_loadConfig env args cwd d).perform.1]
  · intro exts token hexts htoken
    exact ⟨check_of_taken hexts htoken, toSettings_of_taken hexts htoken cwd⟩

/-- Values with blanks, dots and slashes around them, and the same values as they are read. -/
theorem check_agrees_untidy :
    let c : Config :=
      { extensions := [" ..ts ".toList, "d.mts".toList], aliasPrefix := " @// ".toList }
    let exts := ["ts".toList, "d.mts".toList]
    let token := "@".toList
    let cwd := Path.ofString "/p"
    c.check = .ok () ∧ (c.toSettings cwd).check = .ok () ∧
      List.Forall₂ (fun w e => Extension.parse w = .ok e) c.extensions exts ∧
      AliasToken.parse c.aliasPrefix = .ok token ∧
      check { c with extensions := exts, aliasPrefix := token } = c.check ∧
      toSettings { c with extensions := exts, aliasPrefix := token } cwd = c.toSettings cwd := by
  intro c exts token cwd
  have hcheck : c.check = .ok () := by decide
  have hexts : List.Forall₂ (fun w e => Extension.parse w = .ok e) c.extensions exts :=
    .cons (by decide) (.cons (by decide) .nil)
  have htoken : AliasToken.parse c.aliasPrefix = .ok token := by decide
  obtain ⟨-, hsettings, -, htaken⟩ := check_agrees c cwd
  exact ⟨hcheck, (hsettings hcheck).2.2, hexts, htoken,
    htaken exts token (.inr hexts) (.inr htoken)⟩

end ImportPaths.Config
