import ImportPaths.Specifier.Subpath
import ImportPaths.Token.Alias
import Mathlib.Data.List.Infix

/-!
# Reading the form of a specifier

A specifier that is read has the text that its form writes (`body_of_ofBody?`).  Under a valid token
the forms do not overlap: what starts at the token is alias-rooted (`ofBody?_alias`), and what
starts with marks is relative (`ofBody?_climb`).

`Form.Describes` says, apart from any reader and for any token at all, which form a specifier has;
the readers find exactly that one (`ofBody?_eq_some_iff`).
-/

namespace ImportPaths

/-- Marks start with a dot. -/
theorem climb_eq_cons (n : Nat) : ∃ s, climb n = '.' :: s := by
  unfold climb
  split
  · exact ⟨_, rfl⟩
  · rename_i hn
    obtain ⟨m, rfl⟩ := Nat.exists_eq_succ_of_ne_zero hn
    rw [List.replicate_succ, List.flatten_cons]
    exact ⟨_, rfl⟩

namespace Form

variable {token body : List Char} {form : Form}

/-! ## Counting marks -/

/-- Counting takes away what it counts. -/
theorem countUp_eq (s : List Char) :
    (List.replicate (countUp s).1 upMark).flatten ++ (countUp s).2 = s := by
  fun_induction countUp s with
  | case1 rest n t heq ih =>
    rw [heq] at ih
    rw [List.replicate_succ, List.flatten_cons, List.append_assoc, ih]
    rfl
  | case2 s _ => rfl

theorem countUp_upMarks (n : Nat) (s : List Char) :
    countUp ((List.replicate n upMark).flatten ++ s) = (n + (countUp s).1, (countUp s).2) := by
  induction n with
  | zero => rw [List.replicate_zero, List.flatten_nil, List.nil_append, Nat.zero_add]
  | succ n ih =>
    rw [List.replicate_succ, List.flatten_cons, List.append_assoc]
    change countUp ('.' :: '.' :: '/' :: ((List.replicate n upMark).flatten ++ s)) = _
    rw [countUp, ih, Nat.add_right_comm]

/-- Marks that climb at all start with one mark. -/
theorem upMark_prefix_upMarks {n : Nat} (hn : n ≠ 0) (s : List Char) :
    upMark <+: (List.replicate n upMark).flatten ++ s := by
  obtain ⟨m, rfl⟩ := Nat.exists_eq_succ_of_ne_zero hn
  rw [List.replicate_succ, List.flatten_cons, List.append_assoc]
  exact List.prefix_append _ _

/-- No text starts with both marks. -/
theorem not_upMark_of_sameMark (h : sameMark <+: body) : ¬upMark <+: body := by
  rintro ⟨t, rfl⟩
  obtain ⟨s, hs⟩ := h
  cases hs

/-! ## Each way to read -/

theorem aliasRooted?_eq_some_iff :
    aliasRooted? token body = some form ↔
      ∃ subpath, subpath ≠ [] ∧ body = token ++ '/' :: subpath ∧ form = .aliasRooted subpath := by
  have hfront (subpath : List Char) :
      (token ++ ['/']).isPrefixOf? body = some subpath ↔ body = token ++ '/' :: subpath := by
    rw [List.isPrefixOf?_eq_some_iff_append_eq, List.append_assoc, List.singleton_append]
    exact eq_comm
  unfold aliasRooted?
  constructor
  · intro h
    split at h
    · cases h
    · cases h
    · rename_i subpath hne hs
      exact ⟨subpath, hne, (hfront subpath).1 hs, (Option.some.inj h).symm⟩
  · rintro ⟨subpath, hne, hbody, rfl⟩
    rw [(hfront subpath).2 hbody]
    cases subpath with
    | nil => exact absurd rfl hne
    | cons c s => rfl

theorem relativeUp?_eq_some (h : relativeUp? body = some form) :
    (countUp body).1 ≠ 0 ∧ form = .relativeUp (countUp body).1 (countUp body).2 := by
  unfold relativeUp? at h
  split at h
  · cases h
  · rename_i hops subpath hne hc
    rw [hc]
    exact ⟨hne, (Option.some.inj h).symm⟩

theorem relativeSame?_eq_some_iff :
    relativeSame? body = some form ↔ ∃ subpath, body = sameMark ++ subpath ∧
      form = .relativeSame subpath := by
  rw [relativeSame?, Option.map_eq_some_iff]
  simp only [List.isPrefixOf?_eq_some_iff_append_eq]
  constructor
  · rintro ⟨subpath, hs, rfl⟩
    exact ⟨subpath, hs.symm, rfl⟩
  · rintro ⟨subpath, hs, rfl⟩
    exact ⟨subpath, hs.symm, rfl⟩

theorem ofBody?_eq (token body : List Char) :
    ofBody? token body =
      (aliasRooted? token body).or ((relativeUp? body).or (relativeSame? body)) := by
  rw [ofBody?, readers]
  cases ha : aliasRooted? token body <;> cases hu : relativeUp? body <;>
    simp [ha, hu]

/-! ## Reading and writing -/

/-- Reading a form loses nothing of the specifier. -/
theorem body_of_ofBody? (h : ofBody? token body = some form) : form.body token = body := by
  rw [ofBody?_eq, Option.or_eq_some_iff, Option.or_eq_some_iff] at h
  rcases h with h | ⟨-, h | ⟨-, h⟩⟩
  · obtain ⟨subpath, -, rfl, rfl⟩ := aliasRooted?_eq_some_iff.1 h
    rfl
  · rw [(relativeUp?_eq_some h).2]
    exact countUp_eq body
  · obtain ⟨subpath, rfl, rfl⟩ := relativeSame?_eq_some_iff.1 h
    rfl

theorem ofBody?_alias {subpath : List Char} (h : subpath ≠ []) :
    ofBody? token (token ++ '/' :: subpath) = some (.aliasRooted subpath) := by
  rw [ofBody?_eq, aliasRooted?_eq_some_iff.2 ⟨subpath, h, rfl, rfl⟩, Option.some_or]

/-- No valid token stands at the front of marks. -/
theorem aliasRooted?_climb (hv : AliasToken.Valid token) (n : Nat) (s : List Char) :
    aliasRooted? token (climb n ++ s) = none := by
  rw [Option.eq_none_iff_forall_ne_some]
  intro form h
  obtain ⟨subpath, -, hs, -⟩ := aliasRooted?_eq_some_iff.1 h
  obtain ⟨t, ht⟩ := climb_eq_cons n
  obtain ⟨c, token', hc⟩ := List.exists_cons_of_ne_nil hv.1
  rw [ht, hc, List.cons_append, List.cons_append] at hs
  have hdot : '.' = c := (List.cons.inj hs).1
  refine hv.2.1 ?_
  rw [hc, hdot, List.head?_cons]

/-- What starts with marks is relative. -/
theorem ofBody?_climb (hv : AliasToken.Valid token) (n : Nat) (s : List Char) :
    ∃ form, ofBody? token (climb n ++ s) = some form ∧ form.isRelative = true := by
  rw [ofBody?_eq, aliasRooted?_climb hv, Option.none_or]
  by_cases hn : n = 0
  · subst hn
    cases hu : relativeUp? (climb 0 ++ s) with
    | some form =>
      rw [(relativeUp?_eq_some hu).2, Option.some_or]
      exact ⟨_, rfl, rfl⟩
    | none =>
      rw [Option.none_or]
      exact ⟨_, relativeSame?_eq_some_iff.2 ⟨s, rfl, rfl⟩, rfl⟩
  · obtain ⟨m, rfl⟩ := Nat.exists_eq_succ_of_ne_zero hn
    rw [climb, if_neg hn, relativeUp?, countUp_upMarks, Nat.succ_add]
    exact ⟨_, rfl, rfl⟩

/-- A relative specifier is its marks and what is left without them. -/
theorem exists_climb_of_isRelative (h : ofBody? token body = some form)
    (hrel : form.isRelative = true) : ∃ n, body = climb n ++ stripMarks body := by
  rw [ofBody?_eq, Option.or_eq_some_iff, Option.or_eq_some_iff] at h
  rcases h with h | ⟨-, h | ⟨-, h⟩⟩
  · obtain ⟨subpath, -, -, rfl⟩ := aliasRooted?_eq_some_iff.1 h
    cases hrel
  · have hne := (relativeUp?_eq_some h).1
    have hmarks := countUp_eq body
    obtain ⟨n, hn⟩ := Nat.exists_eq_succ_of_ne_zero hne
    have hsame : sameMark.isPrefixOf? body = none := by
      rw [← hmarks, hn, List.replicate_succ, List.flatten_cons, List.append_assoc]
      rfl
    refine ⟨(countUp body).1, ?_⟩
    rw [stripMarks, hsame, climb, if_neg hne]
    exact hmarks.symm
  · obtain ⟨subpath, rfl, -⟩ := relativeSame?_eq_some_iff.1 h
    exact ⟨0, rfl⟩

/-! ## Forms apart from the readers -/

/-- The token, a slash and something more. -/
def IsAliasRooted (token body : List Char) : Prop :=
  ∃ subpath, subpath ≠ [] ∧ body = token ++ '/' :: subpath

/-- Which form a specifier has.  What can be taken for alias-rooted is nothing else, and `../` is
counted as often as it is written. -/
inductive Describes (token : List Char) : List Char → Form → Prop
  | aliasRooted {subpath : List Char} (hne : subpath ≠ []) :
    Describes token (token ++ '/' :: subpath) (.aliasRooted subpath)
  | relativeUp {hops : Nat} {subpath : List Char} (hhops : hops ≠ 0)
    (hrest : ¬upMark <+: subpath)
    (halias : ¬IsAliasRooted token ((List.replicate hops upMark).flatten ++ subpath)) :
    Describes token ((List.replicate hops upMark).flatten ++ subpath) (.relativeUp hops subpath)
  | relativeSame {subpath : List Char} (halias : ¬IsAliasRooted token (sameMark ++ subpath)) :
    Describes token (sameMark ++ subpath) (.relativeSame subpath)

theorem aliasRooted?_eq_none_iff : aliasRooted? token body = none ↔ ¬IsAliasRooted token body := by
  rw [Option.eq_none_iff_forall_ne_some]
  constructor
  · rintro h ⟨subpath, hne, hbody⟩
    exact h _ (aliasRooted?_eq_some_iff.2 ⟨subpath, hne, hbody, rfl⟩)
  · intro h form hform
    obtain ⟨subpath, hne, hbody, -⟩ := aliasRooted?_eq_some_iff.1 hform
    exact h ⟨subpath, hne, hbody⟩

/-- Where no mark is left, none is counted. -/
theorem countUp_eq_zero_iff : (countUp body).1 = 0 ↔ ¬upMark <+: body := by
  constructor
  · rintro h ⟨rest, rfl⟩
    have hcount := countUp_upMarks 1 rest
    rw [List.replicate_one, List.flatten_singleton] at hcount
    rw [hcount] at h
    simp at h
  · intro h
    by_contra hne
    have hmark := upMark_prefix_upMarks hne (countUp body).2
    rw [countUp_eq] at hmark
    exact h hmark

/-- All marks are counted. -/
theorem not_upMark_prefix_countUp (s : List Char) : ¬upMark <+: (countUp s).2 := by
  have hcount := countUp_upMarks (countUp s).1 (countUp s).2
  rw [countUp_eq] at hcount
  have hfirst := congrArg Prod.fst hcount
  rw [← countUp_eq_zero_iff]
  dsimp only at hfirst
  omega

theorem relativeUp?_eq_none_iff : relativeUp? body = none ↔ ¬upMark <+: body := by
  rw [← countUp_eq_zero_iff, relativeUp?]
  split
  · rename_i hc
    simp [hc]
  · rename_i hops subpath hne hc
    simpa [hc] using hne

theorem relativeSame?_eq_none_iff : relativeSame? body = none ↔ ¬sameMark <+: body := by
  rw [Option.eq_none_iff_forall_ne_some]
  constructor
  · rintro h ⟨subpath, rfl⟩
    exact h _ (relativeSame?_eq_some_iff.2 ⟨subpath, rfl, rfl⟩)
  · intro h form hform
    obtain ⟨subpath, rfl, -⟩ := relativeSame?_eq_some_iff.1 hform
    exact h (List.prefix_append _ _)

/-- The form that is read is the one that the specifier has. -/
theorem ofBody?_eq_some_iff : ofBody? token body = some form ↔ Describes token body form := by
  rw [ofBody?_eq, Option.or_eq_some_iff, Option.or_eq_some_iff, aliasRooted?_eq_none_iff,
    relativeUp?_eq_none_iff]
  constructor
  · rintro (h | ⟨halias, h | ⟨-, h⟩⟩)
    · obtain ⟨subpath, hne, rfl, rfl⟩ := aliasRooted?_eq_some_iff.1 h
      exact .aliasRooted hne
    · obtain ⟨hne, rfl⟩ := relativeUp?_eq_some h
      have hmarks := countUp_eq body
      rw [← hmarks] at halias
      nth_rewrite 1 [← hmarks]
      exact .relativeUp hne (not_upMark_prefix_countUp body) halias
    · obtain ⟨subpath, rfl, rfl⟩ := relativeSame?_eq_some_iff.1 h
      exact .relativeSame halias
  · intro h
    cases h with
    | aliasRooted hne => exact Or.inl (aliasRooted?_eq_some_iff.2 ⟨_, hne, rfl, rfl⟩)
    | @relativeUp hops subpath hhops hrest halias =>
      refine Or.inr ⟨halias, Or.inl ?_⟩
      have hzero := countUp_eq_zero_iff.2 hrest
      have hsub := countUp_eq subpath
      rw [hzero, List.replicate_zero, List.flatten_nil, List.nil_append] at hsub
      obtain ⟨n, rfl⟩ := Nat.exists_eq_succ_of_ne_zero hhops
      rw [relativeUp?, countUp_upMarks, hzero, hsub]
      rfl
    | @relativeSame subpath halias =>
      have hup := not_upMark_of_sameMark (List.prefix_append sameMark subpath)
      exact Or.inr ⟨halias, Or.inr ⟨hup, relativeSame?_eq_some_iff.2 ⟨_, rfl, rfl⟩⟩⟩

/-- The specifiers that have a form at all. -/
theorem exists_describes_iff : (∃ form, Describes token body form) ↔
    IsAliasRooted token body ∨ upMark <+: body ∨ sameMark <+: body := by
  constructor
  · rintro ⟨form, h⟩
    cases h with
    | aliasRooted hne => exact Or.inl ⟨_, hne, rfl⟩
    | relativeUp hhops _ _ => exact Or.inr (Or.inl (upMark_prefix_upMarks hhops _))
    | relativeSame _ => exact Or.inr (Or.inr (List.prefix_append _ _))
  · intro h
    by_cases halias : IsAliasRooted token body
    · obtain ⟨subpath, hne, rfl⟩ := halias
      exact ⟨_, .aliasRooted hne⟩
    · rcases h with h | h | ⟨subpath, rfl⟩
      · exact absurd h halias
      · have hmarks := countUp_eq body
        have hne : (countUp body).1 ≠ 0 := fun hzero => countUp_eq_zero_iff.1 hzero h
        rw [← hmarks] at halias ⊢
        exact ⟨_, .relativeUp hne (not_upMark_prefix_countUp body) halias⟩
      · exact ⟨_, .relativeSame halias⟩

end Form

end ImportPaths
