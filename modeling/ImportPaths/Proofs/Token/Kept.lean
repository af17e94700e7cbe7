import ImportPaths.Settings
import Mathlib.Data.List.DropRight

/-!
# Tokens as they are kept

What a user writes as an extension or as an alias token is first stripped of what may stand around
it, and then checked.  Stripping alone does not come to rest: what it uncovers may be stripped the
next time.  But a token that passes its check holds no blank and no slash, so that nothing is left
to strip, and what was read is read as itself (`Extension.parse_of_parse`,
`AliasToken.parse_of_valid`).
-/

namespace ImportPaths

/-! ## Stripping -/

theorem Text.dropEndWhile_eq_self {p : Char → Bool} {s : List Char}
    (hlast : ∀ c ∈ s.getLast?, p c = false) : Text.dropEndWhile p s = s := by
  refine List.rdropWhile_eq_self_iff.2 ?_
  intro hne
  rw [hlast _ (List.getLast?_eq_some_getLast hne)]
  exact Bool.false_ne_true

theorem Text.trim_eq_self {s : List Char} (hfirst : ∀ c ∈ s.head?, Text.isBlank c = false)
    (hlast : ∀ c ∈ s.getLast?, Text.isBlank c = false) : Text.trim s = s := by
  have hfront : s.dropWhile Text.isBlank = s := by
    cases s with
    | nil => rfl
    | cons c s => exact List.dropWhile_cons_of_neg (by simp [hfirst c rfl])
  rw [Text.trim, hfront, Text.dropEndWhile_eq_self hlast]

/-- A text without blanks has none to trim. -/
theorem Text.trim_of_forall {s : List Char} (h : ∀ c ∈ s, Text.isBlank c = false) :
    Text.trim s = s :=
  Text.trim_eq_self (fun c hc => h c (List.mem_of_mem_head? hc))
    fun c hc => h c (List.mem_of_mem_getLast? hc)

/-! ## Extensions -/

namespace Extension

variable {written ext : List Char}

theorem parse_eq_ok_iff :
    parse written = .ok ext ↔ normalize written = ext ∧ ext ≠ [] ∧
      ∀ c ∈ ext, AliasToken.isSeparator c = false ∧ Text.isBlank c = false := by
  have hany :
      (normalize written).any (fun c => AliasToken.isSeparator c || Text.isBlank c) = false ↔
        ∀ c ∈ normalize written, AliasToken.isSeparator c = false ∧ Text.isBlank c = false := by
    simp
  unfold parse
  dsimp only
  split
  · rename_i hempty
    have hnil := List.isEmpty_iff.1 hempty
    simp only [reduceCtorEq, false_iff]
    rintro ⟨rfl, hne, -⟩
    exact hne hnil
  · rename_i hempty
    rw [List.isEmpty_iff] at hempty
    split
    · rename_i hbad
      simp only [reduceCtorEq, false_iff]
      rintro ⟨rfl, -, hgood⟩
      rw [hany.2 hgood] at hbad
      cases hbad
    · rename_i hgood
      rw [Bool.not_eq_true, hany] at hgood
      rw [Except.ok.injEq]
      constructor
      · rintro rfl
        exact ⟨rfl, hempty, hgood⟩
      · rintro ⟨rfl, -⟩
        rfl

/-- An extension that was read has nothing to strip, -/
theorem normalize_of_parse (h : parse written = .ok ext) : normalize ext = ext := by
  obtain ⟨rfl, -, hchars⟩ := parse_eq_ok_iff.1 h
  rw [normalize, Text.trim_of_forall fun c hc => (hchars c hc).2, normalize]
  exact List.dropWhile_idempotent _ _

/-- and is read as itself. -/
theorem parse_of_parse (h : parse written = .ok ext) : parse ext = .ok ext :=
  parse_eq_ok_iff.2 ⟨normalize_of_parse h, (parse_eq_ok_iff.1 h).2⟩

end Extension

/-! ## Alias tokens -/

namespace AliasToken

variable {written token : List Char}

theorem check_eq_ok_iff : check token = .ok () ↔ Valid token := by
  rw [← fault?_eq_none_iff, check]
  cases fault? token <;> simp

theorem parse_eq_ok_iff :
    parse written = .ok token ↔ normalize written = token ∧ Valid token := by
  have hparse : parse written = (check (normalize written)).map fun _ => normalize written := by
    rw [parse]
    cases check (normalize written) <;> rfl
  rw [hparse]
  constructor
  · intro h
    cases hcheck : check (normalize written) with
    | error e =>
      rw [hcheck] at h
      cases h
    | ok u =>
      rw [hcheck] at h
      cases h
      exact ⟨rfl, check_eq_ok_iff.1 hcheck⟩
  · rintro ⟨rfl, hvalid⟩
    rw [check_eq_ok_iff.2 hvalid]
    rfl

theorem Valid.ne_slash (h : Valid token) {c : Char} (hc : c ∈ token) : c ≠ '/' := by
  have hsep := (h.2.2 c hc).1
  simp only [isSeparator, Bool.or_eq_false_iff, beq_eq_false_iff_ne] at hsep
  exact hsep.1

/-- A valid token has nothing to strip, -/
theorem normalize_of_valid (h : Valid token) : normalize token = token := by
  have hlast : ∀ c ∈ token.getLast?, (c == '/') = false := by
    intro c hc
    exact beq_eq_false_iff_ne.2 (h.ne_slash (List.mem_of_mem_getLast? hc))
  rw [normalize, Text.trim_of_forall fun c hc => (h.2.2 c hc).2.2, Text.dropEndWhile_eq_self hlast]

/-- and is read as itself. -/
theorem parse_of_valid (h : Valid token) : parse token = .ok token :=
  parse_eq_ok_iff.2 ⟨normalize_of_valid h, h⟩

/-- What is not valid may be stripped again and again. -/
example : normalize "@ /".toList = "@ ".toList ∧ normalize "@ ".toList = "@".toList := by decide

end AliasToken

/-! ## Settings -/

theorem Settings.check_eq_ok_iff {s : Settings} :
    s.check = .ok () ↔ s.extensions ≠ [] ∧ AliasToken.Valid s.token := by
  unfold Settings.check
  split
  · rename_i hempty
    simp [List.isEmpty_iff.1 hempty]
  · rename_i hempty
    rw [List.isEmpty_iff] at hempty
    rw [AliasToken.check_eq_ok_iff, and_iff_right hempty]

theorem Settings.valid_of_check {s : Settings} (h : s.check = .ok ()) :
    AliasToken.Valid s.token :=
  (Settings.check_eq_ok_iff.1 h).2

end ImportPaths
