import ImportPaths.Config.Basic
import ImportPaths.Proofs.Json.RoundTrip

/-!
# A configuration as a text

A configuration is written as an object of strings and a list of strings, so its text is read as the
value it was written from (`legible_toJson`).  The members of this value are told apart by their
names, and a `$schema` that is not there is left out and has its default again (`ofJson?_toJson`).
Hence a configuration is what its text says, and a first configuration says the defaults
(`read?_toJson_pretty`).
-/

namespace ImportPaths

open Json

/-! ## Types of values -/

namespace Json.Value

variable {v : Value}

theorem string?_eq_some_iff {s : List Char} : v.string? = some s ↔ v = .string s := by
  cases v <;> simp [string?]

theorem nullable?_eq_some_iff {s : Option (List Char)} :
    v.nullable? = some s ↔ v = s.elim .null .string := by
  cases v <;> cases s <;> simp [nullable?]

theorem strings?_eq_some_iff {ss : List (List Char)} :
    v.strings? = some ss ↔ v = .array (ss.map .string) := by
  cases v with
  | array items =>
    rw [strings?, array.injEq]
    exact mapM_eq_some_iff_eq_map string?_eq_some_iff
  | null | bool | number | string | object => simp [strings?]

end Json.Value

namespace Config

/-- The members of a configuration give it back. -/
theorem ofJson?_toJson (c : Config) : ofJson? c.toJson = some c := by
  obtain ⟨schema, scanRoot, extensions, aliasPrefix, projectRoot⟩ := c
  -- which member is which is decided by the names alone, so only the list remains to be read
  have hmembers : ofJson? (toJson ⟨schema, scanRoot, extensions, aliasPrefix, projectRoot⟩) =
      (Value.strings? (.array (extensions.map .string))).bind fun extensions =>
        some ⟨schema, scanRoot, extensions, aliasPrefix, projectRoot⟩ := by
    cases schema <;> rfl
  rw [hmembers, Value.strings?_eq_some_iff.2 rfl]
  rfl

theorem legible_strings (ss : List (List Char)) (depth : Nat) :
    Legible (depth + 1) (.array (ss.map .string)) := by
  refine .array (List.forall_mem_map.2 ?_)
  intro s _
  exact .string s

theorem legible_toJson (c : Config) (depth : Nat) : Legible (depth + 2) c.toJson := by
  refine .object ?_
  intro m hm
  simp only [List.mem_append, Option.mem_toList, Option.map_eq_some_iff, List.mem_cons,
    List.not_mem_nil, or_false] at hm
  rcases hm with ⟨s, -, rfl⟩ | rfl | rfl | rfl | rfl
  · exact .string s
  · exact .string _
  · exact legible_strings _ _
  · exact .string _
  · exact .string _

/-- The text of a configuration, perhaps with blanks after it, is read as the configuration. -/
theorem read?_pretty_append (c : Config) {gap : List Char} (hgap : IsGap gap) :
    read? (c.toJson.pretty ++ gap) = some c := by
  rw [read?, (c.legible_toJson 125).read?_pretty hgap, Option.bind_some, ofJson?_toJson]

/-- Every configuration is read back from its text as it was, whatever characters stand in it; and
the text of a first configuration says the defaults, with the `$schema` that was asked for. -/
theorem read?_toJson_pretty (c : Config) (schema : Option (List Char)) :
    read? c.toJson.pretty = some c ∧ read? (exampleText schema) = some { schema } := by
  refine ⟨?_, ?_⟩
  · have hread := c.read?_pretty_append isGap_nil
    rwa [List.append_nil] at hread
  · exact read?_pretty_append { schema } (List.forall_mem_singleton.2 rfl)

end Config

end ImportPaths
