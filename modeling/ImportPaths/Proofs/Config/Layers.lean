import ImportPaths.Config.Layers
import ImportPaths.Proofs.Results
import Mathlib.Data.List.Basic

/-!
# Which layer is heard

The layers of a configuration as rules: what the command line, the environment and a file set, and
which of them is heard about a field (`Heard`).  A configuration is put together exactly when the
`$schema` of the file and everything that is heard is of the right type, and then it says just that
(`ofLayers?_eq_some_iff`, `ofLayers?_eq_none_iff`).  What a lower layer says about a field that a
higher one sets is not looked at (`layers_of_set`).
-/

namespace ImportPaths

/-! ## The last of several -/

/-- `x` is the last one in a list that has a property. -/
def IsLast {α : Type} (p : α → Prop) (l : List α) (x : α) : Prop :=
  ∃ before after, l = before ++ x :: after ∧ p x ∧ ∀ y ∈ after, ¬p y

theorem getLast?_filter_eq_some_iff {α : Type} {p : α → Bool} {l : List α} {x : α} :
    (l.filter p).getLast? = some x ↔ IsLast (p · = true) l x := by
  rw [List.getLast?_eq_head?_reverse, ← List.filter_reverse, List.head?_filter,
    List.find?_eq_some_iff_append]
  constructor
  · rintro ⟨hx, front, back, hl, hfront⟩
    refine ⟨back.reverse, front.reverse, ?_, hx, ?_⟩
    · rw [← List.reverse_reverse l, hl]
      simp
    · intro y hy
      simpa using hfront y (List.mem_reverse.1 hy)
  · rintro ⟨before, after, rfl, hx, hafter⟩
    refine ⟨hx, after.reverse, before.reverse, by simp, ?_⟩
    intro y hy
    simpa using hafter y (List.mem_reverse.1 hy)

/-! ## Types of values -/

theorem Datum.text?_eq_some_iff {v : Datum} {s : List Char} : v.text? = some s ↔ v = .text s := by
  cases v <;> simp [Datum.text?]

theorem Datum.texts?_eq_some_iff {v : Datum} {ts : List (List Char)} :
    v.texts? = some ts ↔ v = .list (ts.map .text) := by
  cases v with
  | text s => simp [Datum.texts?]
  | other => simp [Datum.texts?]
  | list items =>
    rw [Datum.texts?, Datum.list.injEq]
    exact mapM_eq_some_iff_eq_map Datum.text?_eq_some_iff

/-- What a configuration says about a field. -/
def Config.datum (c : Config) : Field → Datum
  | .scanRoot => .text c.scanRoot.chars
  | .extensions => .list (c.extensions.map .text)
  | .aliasPrefix => .text c.aliasPrefix
  | .projectRoot => .text c.projectRoot.chars

/-- The values that a field may have: extensions are a list of texts, all else is a text. -/
def Field.Fits (f : Field) (v : Datum) : Prop :=
  match f with
  | .extensions => ∃ ts : List (List Char), v = .list (ts.map .text)
  | .scanRoot | .aliasPrefix | .projectRoot => ∃ s, v = .text s

theorem Field.fits_datum (f : Field) (c : Config) : f.Fits (c.datum f) := by
  cases f <;> exact ⟨_, rfl⟩

theorem Layer.config?_eq_some_iff {l : Layer} {schema : Option (List Char)} {c : Config} :
    l.config? schema = some c ↔ c.schema = schema ∧ ∀ f, l f = some (c.datum f) := by
  simp only [Layer.config?, Option.bind_eq_bind, Option.bind_eq_some_iff, Datum.text?_eq_some_iff,
    Datum.texts?_eq_some_iff]
  constructor
  · rintro ⟨v, hv, s, rfl, w, hw, ts, rfl, x, hx, a, rfl, y, hy, r, rfl, hc⟩
    cases hc
    exact ⟨rfl, fun f => by cases f <;> assumption⟩
  · rintro ⟨rfl, h⟩
    exact ⟨_, h .scanRoot, _, rfl, _, h .extensions, _, rfl, _, h .aliasPrefix, _, rfl, _,
      h .projectRoot, _, rfl, rfl⟩

/-! ## What each layer sets -/

/-- The name of the environment variable of a field. -/
def Field.environmentName : Field → List Char
  | .scanRoot => "REROOT_SCAN_ROOT".toList
  | .extensions => "REROOT_EXTENSIONS".toList
  | .aliasPrefix => "REROOT_ALIAS_PREFIX".toList
  | .projectRoot => "REROOT_PROJECT_ROOT".toList

/-- Whether a variable is that of a field: without the blanks around it, its name is that of the
field's variable but for the case of its letters. -/
def Field.NamedBy (f : Field) (name : List Char) : Prop :=
  (Text.trim name).map Char.toLower = f.environmentName.map Char.toLower

instance (f : Field) (name : List Char) : Decidable (f.NamedBy name) :=
  inferInstanceAs (Decidable (_ = _))

/-- The command line sets a field to a value. -/
def ArgsSet (args : CommandLine.ConfigArgs) (f : Field) (v : Datum) : Prop :=
  match f with
  | .scanRoot => ∃ p, args.scanRoot = some p ∧ v = .text p.chars
  | .extensions => args.extensions ≠ [] ∧ v = .list (args.extensions.map .text)
  | .aliasPrefix => ∃ token, args.token = some token ∧ v = .text token
  | .projectRoot => ∃ p, args.projectRoot = some p ∧ v = .text p.chars

/-- The environment sets a field to a value: that of the last variable of the field. -/
def EnvSets (env : List (List Char × List Char)) (f : Field) (v : Datum) : Prop :=
  ∃ name written, IsLast (fun w => f.NamedBy w.1) env (name, written) ∧ v = Variable.read written

/-- The file has a member with this value, and it is the last one with its name. -/
def LastMember (ms : List (List Char × Json.Value)) (key : List Char) (value : Json.Value) : Prop :=
  IsLast (fun m => m.1 = key) ms (key, value)

/-- The file sets a field to a value. -/
def FileSets (ms : List (List Char × Json.Value)) (f : Field) (v : Datum) : Prop :=
  ∃ value, LastMember ms f.key value ∧ v = Datum.ofJson value

/-- The `$schema` of a file: a text, or none where there is no such member or it is `null`. -/
inductive SchemaIs (ms : List (List Char × Json.Value)) : Option (List Char) → Prop
  | absent (h : ∀ value, ¬LastMember ms Config.schemaKey value) : SchemaIs ms none
  | null (h : LastMember ms Config.schemaKey .null) : SchemaIs ms none
  | string {s : List Char} (h : LastMember ms Config.schemaKey (.string s)) : SchemaIs ms (some s)

/-- The value that is heard about a field: that of the highest layer which sets it. -/
inductive Heard (args : CommandLine.ConfigArgs) (env : List (List Char × List Char))
    (ms : List (List Char × Json.Value)) (f : Field) : Datum → Prop
  | args {v : Datum} (h : ArgsSet args f v) : Heard args env ms f v
  | env {v : Datum} (hargs : ∀ u, ¬ArgsSet args f u) (h : EnvSets env f v) : Heard args env ms f v
  | file {v : Datum} (hargs : ∀ u, ¬ArgsSet args f u) (henv : ∀ u, ¬EnvSets env f u)
      (h : FileSets ms f v) : Heard args env ms f v
  | default (hargs : ∀ u, ¬ArgsSet args f u) (henv : ∀ u, ¬EnvSets env f u)
      (hfile : ∀ u, ¬FileSets ms f u) : Heard args env ms f (({} : Config).datum f)

variable {args : CommandLine.ConfigArgs} {env env' : List (List Char × List Char)}
variable {ms ms' : List (List Char × Json.Value)} {f : Field} {v : Datum} {c : Config}

theorem Field.isSetBy_iff {name : List Char} : f.isSetBy name = true ↔ f.NamedBy name := by
  have hname : f.variableName = f.environmentName.map Char.toLower := by cases f <;> decide
  rw [Field.isSetBy, beq_iff_eq, hname, Field.NamedBy]

theorem ofArgs_eq_some_iff : Layer.ofArgs args f = some v ↔ ArgsSet args f v := by
  cases f with
  | extensions =>
    rw [Layer.ofArgs, ArgsSet]
    cases args.extensions with
    | nil => simp
    | cons extension extensions => simp [eq_comm (b := v)]
  | scanRoot | aliasPrefix | projectRoot =>
    rw [Layer.ofArgs, Option.map_eq_some_iff, ArgsSet]
    simp only [eq_comm (b := v)]

theorem ofVariables_eq_some_iff : Layer.ofVariables env f = some v ↔ EnvSets env f v := by
  rw [Layer.ofVariables, Option.map_eq_some_iff, Prod.exists]
  simp only [getLast?_filter_eq_some_iff, Field.isSetBy_iff, EnvSets, eq_comm (b := v)]

theorem getLast?_filter_key_eq_some_iff {key name : List Char} {value : Json.Value} :
    (ms.filter (·.1 == key)).getLast? = some (name, value) ↔
      name = key ∧ LastMember ms key value := by
  rw [getLast?_filter_eq_some_iff]
  simp only [beq_iff_eq, LastMember]
  constructor
  · intro h
    obtain ⟨before, after, hms, hname, hafter⟩ := h
    cases hname
    exact ⟨rfl, before, after, hms, rfl, hafter⟩
  · rintro ⟨rfl, h⟩
    exact h

theorem ofMembers_eq_some_iff : Layer.ofMembers ms f = some v ↔ FileSets ms f v := by
  rw [Layer.ofMembers, Option.map_eq_some_iff]
  simp only [Prod.exists, getLast?_filter_key_eq_some_iff, FileSets]
  constructor
  · rintro ⟨name, value, ⟨rfl, h⟩, rfl⟩
    exact ⟨value, h, rfl⟩
  · rintro ⟨value, h, rfl⟩
    exact ⟨f.key, value, ⟨rfl, h⟩, rfl⟩

theorem fileSchema?_eq_some_iff {schema : Option (List Char)} :
    Config.fileSchema? ms = some schema ↔ SchemaIs ms schema := by
  unfold Config.fileSchema?
  cases hlast : (ms.filter (·.1 == Config.schemaKey)).getLast? with
  | none =>
    have hnone (value : Json.Value) : ¬LastMember ms Config.schemaKey value := by
      intro h
      rw [getLast?_filter_key_eq_some_iff.2 ⟨rfl, h⟩] at hlast
      cases hlast
    simp only [Option.some.injEq]
    constructor
    · rintro rfl
      exact .absent hnone
    · intro h
      cases h with
      | absent => rfl
      | null h | string h => exact absurd h (hnone _)
  | some m =>
    obtain ⟨name, value⟩ := m
    obtain ⟨rfl, hvalue⟩ := getLast?_filter_key_eq_some_iff.1 hlast
    have hsame {value' : Json.Value} (h : LastMember ms Config.schemaKey value') :
        value' = value := by
      rw [getLast?_filter_key_eq_some_iff.2 ⟨rfl, h⟩] at hlast
      cases hlast
      rfl
    dsimp only
    constructor
    · intro h
      cases value with
      | null => cases h; exact .null hvalue
      | string s => cases h; exact .string hvalue
      | bool | number | array | object => cases h
    · intro h
      cases h with
      | absent h => exact absurd hvalue (h value)
      | null h => rw [← hsame h]; rfl
      | string h => rw [← hsame h]; rfl

/-! ## All layers -/

/-- All layers, one on top of the other. -/
def layers (args : CommandLine.ConfigArgs) (env : List (List Char × List Char))
    (ms : List (List Char × Json.Value)) : Layer :=
  .onTopOf (.ofArgs args) (.onTopOf (.ofVariables env) (.onTopOf (.ofMembers ms) .defaults))

theorem layers_eq_some_iff : layers args env ms f = some v ↔ Heard args env ms f v := by
  have hdefaults : Layer.defaults f = some (({} : Config).datum f) := by cases f <;> rfl
  simp only [layers, Layer.onTopOf, Option.or_eq_some_iff, Option.eq_none_iff_forall_ne_some, ne_eq,
    ofArgs_eq_some_iff, ofVariables_eq_some_iff, ofMembers_eq_some_iff, hdefaults,
    Option.some.injEq]
  constructor
  · rintro (h | ⟨hargs, h | ⟨henv, h | ⟨hfile, rfl⟩⟩⟩)
    · exact .args h
    · exact .env hargs h
    · exact .file hargs henv h
    · exact .default hargs henv hfile
  · intro h
    cases h with
    | args h => exact .inl h
    | env hargs h => exact .inr ⟨hargs, .inl h⟩
    | file hargs henv h => exact .inr ⟨hargs, .inr ⟨henv, .inl h⟩⟩
    | default hargs henv hfile => exact .inr ⟨hargs, .inr ⟨henv, .inr ⟨hfile, rfl⟩⟩⟩

/-- Something is heard about every field. -/
theorem exists_heard (args : CommandLine.ConfigArgs) (env : List (List Char × List Char))
    (ms : List (List Char × Json.Value)) (f : Field) : ∃ v, Heard args env ms f v := by
  simp only [← layers_eq_some_iff]
  refine Option.ne_none_iff_exists'.1 ?_
  simp [layers, Layer.onTopOf, Layer.defaults]

namespace Config

theorem ofLayers?_eq (hkeys : ∀ m ∈ ms, m.1 ∈ keys) :
    ofLayers? ms env args = (fileSchema? ms).bind (layers args env ms).config? := by
  have hall : ms.all (fun m => keys.contains m.1) = true :=
    List.all_eq_true.2 fun m hm => List.contains_iff_mem.2 (hkeys m hm)
  rw [ofLayers?, if_pos hall]
  cases fileSchema? ms <;> rfl

/-- A configuration is put together when it says what is heard and has the `$schema` of the
file. -/
theorem ofLayers?_eq_some_iff (hkeys : ∀ m ∈ ms, m.1 ∈ keys) :
    ofLayers? ms env args = some c ↔
      SchemaIs ms c.schema ∧ ∀ f, Heard args env ms f (c.datum f) := by
  simp only [ofLayers?_eq hkeys, Option.bind_eq_some_iff, Layer.config?_eq_some_iff,
    fileSchema?_eq_some_iff, layers_eq_some_iff]
  constructor
  · rintro ⟨schema, hschema, rfl, hheard⟩
    exact ⟨hschema, hheard⟩
  · rintro ⟨hschema, hheard⟩
    exact ⟨c.schema, hschema, rfl, hheard⟩

/-- None is put together when something that is heard, or the `$schema`, is not of its type. -/
theorem ofLayers?_eq_none_iff (hkeys : ∀ m ∈ ms, m.1 ∈ keys) :
    ofLayers? ms env args = none ↔
      (∀ schema, ¬SchemaIs ms schema) ∨ ∃ f v, Heard args env ms f v ∧ ¬f.Fits v := by
  constructor
  · intro hnone
    by_contra hall
    simp only [not_or, not_forall, not_not, not_exists, not_and] at hall
    obtain ⟨⟨schema, hschema⟩, hfits⟩ := hall
    have hheard (f : Field) : ∃ v, Heard args env ms f v ∧ f.Fits v := by
      obtain ⟨v, hv⟩ := exists_heard args env ms f
      exact ⟨v, hv, hfits f v hv⟩
    obtain ⟨_, hscan, scanRoot, rfl⟩ := hheard .scanRoot
    obtain ⟨_, hext, extensions, rfl⟩ := hheard .extensions
    obtain ⟨_, halias, aliasPrefix, rfl⟩ := hheard .aliasPrefix
    obtain ⟨_, hproject, projectRoot, rfl⟩ := hheard .projectRoot
    have hsome : ofLayers? ms env args =
        some ⟨schema, ⟨scanRoot⟩, extensions, aliasPrefix, ⟨projectRoot⟩⟩ :=
      (ofLayers?_eq_some_iff hkeys).2 ⟨hschema, fun f => by cases f <;> assumption⟩
    rw [hnone] at hsome
    cases hsome
  · intro h
    rw [Option.eq_none_iff_forall_ne_some]
    intro c hc
    obtain ⟨hschema, hheard⟩ := (ofLayers?_eq_some_iff hkeys).1 hc
    rcases h with hnone | ⟨f, v, hv, hfits⟩
    · exact hnone _ hschema
    · have hsame := (layers_eq_some_iff.2 hv).symm.trans (layers_eq_some_iff.2 (hheard f))
      cases hsame
      exact hfits (f.fits_datum c)

end Config

/-! ## What makes no difference -/

/-- A field that the command line or the environment sets is not looked up further down. -/
theorem layers_of_set
    (h : (∃ v, ArgsSet args f v) ∨ (∃ v, EnvSets env f v) ∧ env' = env) :
    layers args env' ms' f = layers args env ms f := by
  rcases h with ⟨v, h⟩ | ⟨⟨v, h⟩, rfl⟩
  · simp only [layers, Layer.onTopOf, ofArgs_eq_some_iff.2 h, Option.some_or]
  · simp only [layers, Layer.onTopOf, ofVariables_eq_some_iff.2 h, Option.some_or]

/-- Only the variables and the members of a field matter to it. -/
theorem layers_congr
    (henv : env'.filter (fun v => f.NamedBy v.1) = env.filter fun v => f.NamedBy v.1)
    (hms : ms'.filter (·.1 == f.key) = ms.filter (·.1 == f.key)) :
    layers args env' ms' f = layers args env ms f := by
  have hname (v : List Char × List Char) : f.isSetBy v.1 = decide (f.NamedBy v.1) := by
    rw [Bool.eq_iff_iff, Field.isSetBy_iff, decide_eq_true_iff]
  simp only [layers, Layer.onTopOf, Layer.ofVariables, Layer.ofMembers, hname, henv, hms]

theorem Config.ofLayers?_congr (hkeys : ∀ m ∈ ms, m.1 ∈ keys) (hkeys' : ∀ m ∈ ms', m.1 ∈ keys)
    (hschema : ms'.filter (·.1 == schemaKey) = ms.filter (·.1 == schemaKey))
    (h : ∀ f, layers args env' ms' f = layers args env ms f) :
    ofLayers? ms' env' args = ofLayers? ms env args := by
  rw [ofLayers?_eq hkeys, ofLayers?_eq hkeys', fileSchema?, fileSchema?, hschema, funext h]

end ImportPaths
