import ImportPaths.Config.Schema
import ImportPaths.Proofs.Config.Agreement
import ImportPaths.Proofs.Text.Row

/-!
# The published form of alias tokens

An editor knows alias tokens by the pattern in the schema, and a configuration is checked by
stripping its token and looking for what breaks a rule.  Both say the same of a text that needs no
stripping but for one slash at its end: it is a valid token, or one with a slash after it
(`mem_language_row_iff`, `valid_normalize_iff`).  So of these texts the pattern describes exactly
those that pass the check, and it describes no others (`Config.matches_published_iff`): an editor
never takes a token that is refused later.
-/

namespace ImportPaths

open Text

/-! ## The pattern in the schema -/

/-- The value of a member of an object. -/
def Json.Value.member? (key : List Char) : Json.Value → Option Json.Value
  | .object members => members.lookup key
  | _ => none

/-- The pattern that the schema gives for alias tokens. -/
def Config.publishedPattern? : Option (List Char) := do
  let properties ← jsonSchema.member? "properties".toList
  let token ← properties.member? aliasPrefixKey
  let pattern ← token.member? "pattern".toList
  pattern.string?

theorem Config.publishedPattern?_eq : publishedPattern? = some aliasPattern.toList := rfl

namespace AliasToken

variable {c : Char} {token written : List Char}

/-- What stands nowhere in a token. -/
def forbidden : List Row.Exclusion :=
  [.char '/', .char '\\', .char '\'', .char '"', .char '`', .blank]

/-- The form of tokens: the first character is no dot, and a slash may follow the last. -/
def row : List Row.Part :=
  [⟨.noneOf (.char '.' :: forbidden), .once⟩, ⟨.noneOf forbidden, .many⟩, ⟨.char '/', .maybe⟩]

theorem read?_aliasPattern : Row.read? Config.aliasPattern.toList = some row := rfl

theorem matches_aliasPattern_iff :
    Row.Matches Config.aliasPattern.toList written ↔ written ∈ Row.language row := by
  simp [Row.Matches, read?_aliasPattern]

/-! ## What the pattern describes -/

theorem forall_forbidden_iff : (∀ e ∈ forbidden, e.excludes c = false) ↔
    isSeparator c = false ∧ isQuoteMark c = false ∧ isBlank c = false := by
  simp [forbidden, Row.Exclusion.excludes, isSeparator, isQuoteMark, and_assoc]

theorem valid_cons_iff {cs : List Char} : Valid (c :: cs) ↔
    (∀ e ∈ Row.Exclusion.char '.' :: forbidden, e.excludes c = false) ∧
      ∀ d ∈ cs, ∀ e ∈ forbidden, e.excludes d = false := by
  have hdot : (Row.Exclusion.char '.').excludes c = false ↔ c ≠ '.' := by
    simp [Row.Exclusion.excludes]
  simp only [List.forall_mem_cons, forall_forbidden_iff, hdot, Valid]
  simp [and_assoc]

/-- The pattern describes the valid tokens, with or without a slash after them. -/
theorem mem_language_row_iff : written ∈ Row.language row ↔
    ∃ token, Valid token ∧ (written = token ∨ written = token ++ ['/']) := by
  simp only [row, Row.mem_language_cons, Row.mem_language_nil, Row.mem_many_noneOf,
    Row.mem_maybe_char]
  constructor
  · rintro ⟨u, hu, v, ⟨w, hw, x, ⟨y, hy, z, rfl, rfl⟩, rfl⟩, rfl⟩
    obtain ⟨c, rfl, hc⟩ := Row.mem_noneOf.1 hu
    refine ⟨c :: w, valid_cons_iff.2 ⟨hc, hw⟩, ?_⟩
    rcases hy with rfl | rfl
    · exact .inl (by simp)
    · exact .inr (by simp)
  · rintro ⟨token, hvalid, hwritten⟩
    cases token with
    | nil => exact absurd rfl hvalid.1
    | cons c cs =>
      obtain ⟨hc, hcs⟩ := valid_cons_iff.1 hvalid
      refine ⟨[c], Row.mem_noneOf.2 ⟨c, rfl, hc⟩, ?_⟩
      rcases hwritten with rfl | rfl
      · exact ⟨cs, ⟨cs, hcs, [], ⟨[], .inl rfl, [], rfl, rfl⟩, by simp⟩, rfl⟩
      · exact ⟨cs ++ ['/'], ⟨cs, hcs, ['/'], ⟨['/'], .inr rfl, [], rfl, rfl⟩, rfl⟩, rfl⟩

/-! ## What needs no stripping but for a slash -/

/-- A text with no blank around it, and at most one slash at its end. -/
def Tidy (written : List Char) : Prop :=
  (∀ c ∈ written.head?, isBlank c = false) ∧ (∀ c ∈ written.getLast?, isBlank c = false) ∧
    ¬['/', '/'] <:+ written

theorem Tidy.normalize_eq (h : Tidy written) :
    normalize written = dropEndWhile (· == '/') written := by
  rw [normalize, trim_eq_self h.1 h.2.1]

theorem dropEndWhile_append_slash (front : List Char) :
    dropEndWhile (· == '/') (front ++ ['/']) = dropEndWhile (· == '/') front :=
  List.rdropWhile_concat_pos _ _ _ rfl

/-- Nothing but one slash is ever stripped from a tidy text. -/
theorem Tidy.eq_normalize (h : Tidy written) :
    written = normalize written ∨ written = normalize written ++ ['/'] := by
  rw [h.normalize_eq]
  rcases List.eq_nil_or_concat written with rfl | ⟨front, c, rfl⟩
  · exact .inl rfl
  · by_cases hc : c = '/'
    · subst hc
      right
      have hlast : ∀ d ∈ front.getLast?, (d == '/') = false := by
        intro d hd
        obtain ⟨start, rfl⟩ := List.getLast?_eq_some_iff.1 hd
        refine beq_eq_false_iff_ne.2 ?_
        rintro rfl
        exact h.2.2 ⟨start, by simp⟩
      rw [List.concat_eq_append, dropEndWhile_append_slash, dropEndWhile_eq_self hlast]
    · left
      refine (dropEndWhile_eq_self ?_).symm
      intro d hd
      obtain rfl : c = d := by simpa using hd
      exact beq_eq_false_iff_ne.2 hc

theorem Valid.tidy (h : Valid token) : Tidy token := by
  have hblank : ∀ c ∈ token, isBlank c = false := fun c hc => (h.2.2 c hc).2.2
  refine ⟨fun c hc => hblank c (List.mem_of_mem_head? hc),
    fun c hc => hblank c (List.mem_of_mem_getLast? hc), ?_⟩
  intro hslashes
  exact h.ne_slash (hslashes.subset List.mem_cons_self) rfl

theorem Valid.tidy_append_slash (h : Valid token) : Tidy (token ++ ['/']) := by
  refine ⟨?_, ?_, ?_⟩
  · rw [List.head?_append_of_ne_nil _ h.1]
    exact h.tidy.1
  · intro c hc
    obtain rfl : '/' = c := by simpa using hc
    rfl
  · intro hslashes
    obtain ⟨front, hfront⟩ := hslashes
    have hend : front ++ ['/'] ++ ['/'] = token ++ ['/'] := by simpa using hfront
    obtain rfl := List.append_cancel_right hend
    exact h.ne_slash (List.mem_append_right _ List.mem_cons_self) rfl

/-- The tidy texts that are stripped to a valid token are the valid tokens, with or without a slash
after them. -/
theorem valid_normalize_iff : Valid (normalize written) ∧ Tidy written ↔
    ∃ token, Valid token ∧ (written = token ∨ written = token ++ ['/']) := by
  constructor
  · rintro ⟨hvalid, htidy⟩
    exact ⟨normalize written, hvalid, htidy.eq_normalize⟩
  · rintro ⟨token, hvalid, rfl | rfl⟩
    · rw [normalize_of_valid hvalid]
      exact ⟨hvalid, hvalid.tidy⟩
    · rw [hvalid.tidy_append_slash.normalize_eq, dropEndWhile_append_slash,
        ← hvalid.tidy.normalize_eq, normalize_of_valid hvalid]
      exact ⟨hvalid, hvalid.tidy_append_slash⟩

end AliasToken

/-! ## Both together -/

namespace Config

/-- With extensions that can be read, the pattern of the schema describes the alias tokens that pass
the check and have no blank around them and at most one slash at their end. -/
theorem matches_published_iff {c : Config} (hne : c.extensions ≠ [])
    (hexts : ∀ w ∈ c.extensions, ∃ e, Extension.parse w = .ok e) :
    ∃ pattern, publishedPattern? = some pattern ∧
      (Row.Matches pattern c.aliasPrefix ↔ c.check = .ok () ∧
        (∀ d ∈ c.aliasPrefix.head?, isBlank d = false) ∧
        (∀ d ∈ c.aliasPrefix.getLast?, isBlank d = false) ∧
        ¬['/', '/'] <:+ c.aliasPrefix) := by
  have hcheck : c.check = .ok () ↔ AliasToken.Valid (AliasToken.normalize c.aliasPrefix) := by
    rw [check_eq_ok_iff, and_iff_right hne, and_iff_right hexts]
    simp [AliasToken.parse_eq_ok_iff]
  refine ⟨_, publishedPattern?_eq, ?_⟩
  rw [hcheck, AliasToken.matches_aliasPattern_iff, AliasToken.mem_language_row_iff]
  exact AliasToken.valid_normalize_iff.symm

/-- A token with a dot inside it and a slash at its end. -/
theorem matches_published_dotted :
    let c : Config := { extensions := [".d.ts".toList], aliasPrefix := "a.b/".toList }
    c.check = .ok () ∧ ∃ pattern, publishedPattern? = some pattern ∧
      Row.Matches pattern c.aliasPrefix := by
  intro c
  have hcheck : c.check = .ok () := by decide
  have hexts : ∀ w ∈ c.extensions, ∃ e, Extension.parse w = .ok e :=
    List.forall_mem_singleton.2 ⟨"d.ts".toList, by decide⟩
  obtain ⟨pattern, hpattern, hiff⟩ := matches_published_iff (List.cons_ne_nil _ _) hexts
  refine ⟨hcheck, pattern, hpattern, hiff.2 ⟨hcheck, ?_, ?_, by decide⟩⟩
  · rintro d ⟨⟩
    rfl
  · rintro d ⟨⟩
    rfl

end Config

end ImportPaths
