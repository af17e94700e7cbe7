import ImportPaths.Proofs.Command.Job
import ImportPaths.Proofs.Config.Layers
import ImportPaths.Proofs.Disk.Files
import Mathlib

/-!
# Loading the configuration

To load the configuration hears, about each field, the highest layer that sets it: the command line,
then the environment, then the file, then the defaults (`loadConfig_hears`).  What is heard must be
of its type, and nothing else is asked.

A variable is known by its name without the blanks around it, and the file must hold what the reader
of JSON takes for an object, so a number out of bounds spoils it wherever it stands
(`loadConfig_trims_and_bounds`).
-/

namespace ImportPaths

open Job

variable {env : Environment} {args : CommandLine.ConfigArgs} {cwd : Path} {d : Disk}
variable {ms : List (List Char × Json.Value)}

theorem perform_loadConfig (hms : configMembers d args cwd = .ok ms) (env : Environment) :
    ((loadConfig env args cwd).perform d).1 = (layered ms env args).mapError .config := by
  rw [(does_loadConfig env args cwd d).perform.1, configOn, hms]

theorem layered_eq_ok_iff {c : Config} :
    (layered ms env args).mapError CommandError.config = .ok c ↔
      Config.ofLayers? ms env args = some c := by
  rw [layered]
  cases Config.ofLayers? ms env args <;> simp [Except.mapError]

theorem exists_layered_eq_error_iff :
    (∃ e, (layered ms env args).mapError CommandError.config = .error e) ↔
      Config.ofLayers? ms env args = none := by
  rw [layered]
  cases Config.ofLayers? ms env args <;> simp [Except.mapError]

/-- A file that differs from another in the members of one field has known members where that one
has. -/
theorem keys_of_filter_eq {ms' : List (List Char × Json.Value)} {f : Field}
    (hkeys : ∀ m ∈ ms, m.1 ∈ Config.keys)
    (h : ∀ key, key ≠ f.key → ms'.filter (·.1 == key) = ms.filter (·.1 == key)) :
    ∀ m ∈ ms', m.1 ∈ Config.keys := by
  intro m hm
  by_cases hkey : m.1 = f.key
  · rw [hkey]
    cases f <;> decide
  · have hmem : m ∈ ms'.filter (·.1 == m.1) := List.mem_filter.2 ⟨hm, by simp⟩
    rw [h m.1 hkey] at hmem
    exact hkeys m (List.mem_of_mem_filter hmem)

/-- Loading with a file of known members, or without one, succeeds with a configuration exactly when
it has the `$schema` of the file and says about each field what is heard, and fails exactly when the
`$schema` or something that is heard is not of its type.  What a lower layer says about a field that
a higher one sets makes no difference, nor do variables of no field. -/
theorem loadConfig_hears (env : Environment) (args : CommandLine.ConfigArgs) (cwd : Path) (d : Disk)
    (ms : List (List Char × Json.Value)) (hms : configMembers d args cwd = .ok ms)
    (hkeys : ∀ m ∈ ms, m.1 ∈ Config.keys) :
    (∀ c, ((loadConfig env args cwd).perform d).1 = .ok c ↔
      SchemaIs ms c.schema ∧ ∀ f, Heard args env ms f (c.datum f)) ∧
    ((∃ e, ((loadConfig env args cwd).perform d).1 = .error e) ↔
      (∀ schema, ¬SchemaIs ms schema) ∨ ∃ f v, Heard args env ms f v ∧ ¬f.Fits v) ∧
    (∀ f env' d' ms', configMembers d' args cwd = .ok ms' →
      (∀ g, g ≠ f → env'.filter (fun v => g.NamedBy v.1) = env.filter fun v => g.NamedBy v.1) →
      (∀ key, key ≠ f.key → ms'.filter (·.1 == key) = ms.filter (·.1 == key)) →
      ((∃ v, ArgsSet args f v) ∨ (∃ v, EnvSets env f v) ∧ env' = env) →
      ((loadConfig env' args cwd).perform d').1 = ((loadConfig env args cwd).perform d).1) ∧
    ∀ env', (∀ f : Field,
        env'.filter (fun v => f.NamedBy v.1) = env.filter fun v => f.NamedBy v.1) →
      ((loadConfig env' args cwd).perform d).1 = ((loadConfig env args cwd).perform d).1 := by
  rw [perform_loadConfig hms]
  refine ⟨?_, ?_, ?_, ?_⟩
  · intro c
    rw [layered_eq_ok_iff, Config.ofLayers?_eq_some_iff hkeys]
  · rw [exists_layered_eq_error_iff, Config.ofLayers?_eq_none_iff hkeys]
  · intro f env' d' ms' hms' henv hother hset
    have hsame : Config.ofLayers? ms' env' args = Config.ofLayers? ms env args := by
      refine Config.ofLayers?_congr hkeys (keys_of_filter_eq hkeys hother)
        (hother _ (by cases f <;> decide)) ?_
      intro g
      by_cases hg : g = f
      · rw [hg]
        exact layers_of_set hset
      · exact layers_congr (henv g hg) (hother g.key (by revert hg; cases g <;> cases f <;> decide))
    rw [perform_loadConfig hms', layered, layered, hsame]
  · intro env' henv
    have hsame : Config.ofLayers? ms env' args = Config.ofLayers? ms env args :=
      Config.ofLayers?_congr hkeys hkeys rfl fun f => layers_congr (henv f) rfl
    rw [perform_loadConfig hms, layered, layered, hsame]

/-! ### Small disks -/

/-- A configuration file in the root, and nothing else. -/
def withConfig (text : List Char) : Disk where
  root := .directory [(CommandLine.configFileName, .file (encode text))]

theorem configMembers_withConfig {args : CommandLine.ConfigArgs} (hargs : args.config = none)
    (text : List Char) : configMembers (withConfig text) args (.ofString "/") =
      match Config.fileMembers? text with
      | some ms => .ok ms
      | none => .error (.load "/reroot.config.json is no JSON object") := by
  have hlead : (withConfig text).LeadsTo (.ofString "/reroot.config.json")
      [CommandLine.configFileName] := by cbv
  have hread : (withConfig text).readText (.ofString "/reroot.config.json") = .ok text := by
    rw [hlead.readText_eq]
    show Disk.textIn (some (.file (encode text))) = _
    rw [Disk.textIn, decode?_encode]
    rfl
  have hfile : configFile (withConfig text) args (.ofString "/") =
      .ok (some (.ofString "/reroot.config.json")) := by
    rw [configFile, hargs]
    cbv
  rw [configMembers, hfile]
  dsimp only
  rw [fileMembers, hread]
  rfl

/-- One field is heard from each layer; that the file says something wrong about one of them does no
harm. -/
theorem loadConfig_hears_each :
    let env : Environment := [("Reroot_Scan_Root".toList, "web".toList)]
    let args : CommandLine.ConfigArgs := { extensions := ["mts".toList] }
    let d := withConfig "\x7b\"scanRoot\": true, \"aliasPrefix\": \"~\"\x7d".toList
    let ms : List (List Char × Json.Value) :=
      [("scanRoot".toList, .bool true), ("aliasPrefix".toList, .string "~".toList)]
    let c : Config :=
      { scanRoot := .ofString "web", extensions := ["mts".toList], aliasPrefix := "~".toList }
    configMembers d args (.ofString "/") = .ok ms ∧ (∀ m ∈ ms, m.1 ∈ Config.keys) ∧
      ((loadConfig env args (.ofString "/")).perform d).1 = .ok c ∧
      ∀ f, Heard args env ms f (c.datum f) := by
  intro env args d ms c
  have hms : configMembers d args (.ofString "/") = .ok ms :=
    (configMembers_withConfig rfl _).trans rfl
  have hkeys : ∀ m ∈ ms, m.1 ∈ Config.keys :=
    List.forall_mem_cons.2 ⟨by decide, List.forall_mem_singleton.2 (by decide)⟩
  have hload : ((loadConfig env args (.ofString "/")).perform d).1 = .ok c :=
    (perform_loadConfig hms env).trans rfl
  obtain ⟨hhears, -⟩ := loadConfig_hears env args (.ofString "/") d ms hms hkeys
  exact ⟨hms, hkeys, hload, ((hhears c).1 hload).2⟩

/-- A blank before a variable's name does not keep it from setting its field.  A number that is too
large spoils a file although the command line sets the field, where another wrong value does not. -/
theorem loadConfig_trims_and_bounds :
    let cwd := Path.ofString "/"
    let name := " REROOT_SCAN_ROOT".toList
    let args : CommandLine.ConfigArgs := { scanRoot := some (.ofString "x") }
    (∀ f : Field, name.map Char.toLower ≠ f.environmentName.map Char.toLower) ∧
      ((loadConfig [] {} cwd).perform {}).1 = .ok {} ∧
      ((loadConfig [(name, "web".toList)] {} cwd).perform {}).1 =
        .ok { scanRoot := .ofString "web" } ∧
      ((loadConfig [] args cwd).perform (withConfig "\x7b\"scanRoot\": true\x7d".toList)).1 =
        .ok { scanRoot := .ofString "x" } ∧
      ∃ e, ((loadConfig [] args cwd).perform
        (withConfig "\x7b\"scanRoot\": 1e309\x7d".toList)).1 = .error e := by
  intro cwd name args
  have hnone : configMembers {} {} cwd = .ok [] := by
    subst cwd
    cbv
  have htrue : configMembers (withConfig "\x7b\"scanRoot\": true\x7d".toList) args cwd =
      .ok [("scanRoot".toList, .bool true)] := (configMembers_withConfig rfl _).trans rfl
  have hlarge : ∃ e, configMembers (withConfig "\x7b\"scanRoot\": 1e309\x7d".toList) args cwd =
      .error e := ⟨_, (configMembers_withConfig rfl _).trans rfl⟩
  refine ⟨fun f => by cases f <;> decide, (perform_loadConfig hnone _).trans rfl,
    (perform_loadConfig hnone _).trans rfl, (perform_loadConfig htrue _).trans rfl, ?_⟩
  obtain ⟨e, he⟩ := hlarge
  refine ⟨.config e, ?_⟩
  rw [(does_loadConfig [] args cwd _).perform.1, configOn, he]
  rfl

end ImportPaths
