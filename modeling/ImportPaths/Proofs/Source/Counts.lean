import ImportPaths.Proofs.Source.Meaning

/-!
# What a pass counts

A pass counts the statements that it acts on: those that get another specifier, and those for which
there is none (`replaced_eq_countP`, `length_unresolved`).  Under a valid token no third kind is left
over, because a specifier and its other form differ in their first character already
(`startApart_of_otherForm?`): marks start with a dot, and a token does not.

The same fact tells whether a text was changed.  Up to the first specifier that was replaced the two
texts agree, and there they part, whatever the later specifiers are; so a pass gives back the text
exactly when it replaces nothing (`Piece.eq_self_of_render_map_eq`).
-/

namespace ImportPaths

/-! ## Texts that part at once -/

namespace Text

variable {t u : List Char}

/-- Two texts that differ in their first character. -/
def StartApart (t u : List Char) : Prop := ∃ c t' c' u', t = c :: t' ∧ u = c' :: u' ∧ c ≠ c'

theorem StartApart.append_ne (h : StartApart t u) (x y : List Char) : t ++ x ≠ u ++ y := by
  obtain ⟨c, t, c', u, rfl, rfl, hne⟩ := h
  exact fun heq => hne (List.cons.inj heq).1

theorem StartApart.ne (h : StartApart t u) : t ≠ u := by
  simpa using h.append_ne [] []

theorem StartApart.symm (h : StartApart t u) : StartApart u t := by
  obtain ⟨c, t, c', u, ht, hu, hne⟩ := h
  exact ⟨c', u, c, t, hu, ht, hne.symm⟩

end Text

/-! ## Statements among pieces -/

namespace Piece

/-- What holds of no plain piece is counted among the statements. -/
theorem countP_locate {q : Piece → Bool} (hplain : ∀ c, q (.plain c) = false) (start : Nat)
    (ps : List Piece) :
    (locate start ps).countP (fun l => q (.statement l.statement)) = ps.countP q := by
  induction ps generalizing start with
  | nil => rfl
  | cons p ps ih =>
    cases p with
    | plain c => simp [locate, ih, hplain]
    | statement i => rw [locate, List.countP_cons, ih, List.countP_cons]

/-- Where statements get specifiers that start with another character, the text parts from the old
one at the first of them. -/
theorem eq_self_of_render_map_eq {ps : List Piece} {f : Import → Import}
    (hf : ∀ i, .statement i ∈ ps → i.SameFrame (f i))
    (hbody : ∀ i, .statement i ∈ ps → f i = i ∨ Text.StartApart (f i).body i.body)
    (h : render (ps.map (mapStatement f)) = render ps) :
    ∀ i, .statement i ∈ ps → f i = i := by
  induction ps with
  | nil => exact fun i hi => nomatch hi
  | cons p ps ih =>
    have ih := ih (fun i hi => hf i (List.mem_cons_of_mem p hi))
      (fun i hi => hbody i (List.mem_cons_of_mem p hi))
    cases p with
    | plain c =>
      intro i hi
      exact ih (List.cons.inj h).2 i (by simpa using hi)
    | statement j =>
      have hopening := (hf j List.mem_cons_self).opening
      simp only [List.map_cons, mapStatement, render_statement, Import.text, hopening,
        List.append_assoc, List.append_cancel_left_eq] at h
      have hsame : f j = j := by
        refine (hbody j List.mem_cons_self).resolve_right ?_
        intro hapart
        exact hapart.append_ne _ _ h
      rw [hsame] at h
      intro i hi
      rcases List.mem_cons.1 hi with hi | hi
      · cases hi
        exact hsame
      · exact ih (List.append_cancel_left (List.append_cancel_left h)) i hi

end Piece

namespace Settings

open Text

variable {s : Settings} {d : Direction} {dir path : Path} {i : Import} {body text : List Char}

/-! ## The counts -/

theorem judge_eq_unresolved_iff :
    s.judge d dir i = .unresolved ↔ d.accepts i.form = true ∧ s.otherForm? dir i = none := by
  unfold judge
  cases d.accepts i.form with
  | false => simp
  | true =>
    cases s.otherForm? dir i with
    | none => simp
    | some other => by_cases h : other = i.body <;> simp [h]

theorem replaces_iff :
    Verdict.replaces (s.judge d dir) (.statement i) = true ↔
      ∃ body, s.judge d dir i = .replaced body := by
  rw [Verdict.replaces]
  cases s.judge d dir i <;> simp

theorem isSome_unresolved?_iff :
    (Verdict.unresolved? (s.judge d dir) (.statement i)).isSome = true ↔
      s.judge d dir i = .unresolved := by
  rw [Verdict.unresolved?]
  cases s.judge d dir i <;> simp

/-- The specifiers that are replaced are those with another one in the other form. -/
theorem replaced_eq_countP (s : Settings) (d : Direction) (path : Path) (text : List Char) :
    (s.pass d path text).replaced = (statementsFor s.token d text).countP fun l =>
      (s.otherForm? path.directory l.statement).any (· != l.statement.body) := by
  rw [statementsFor, List.countP_filter, statements, pass]
  dsimp only
  rw [← Piece.countP_locate (fun _ => rfl) 0]
  refine List.countP_congr ?_
  intro l _
  simp only [replaces_iff, judge_eq_replaced_iff, Bool.and_eq_true, Option.any_eq_true, bne_iff_ne]
  constructor
  · rintro ⟨body, ha, hother, hne⟩
    exact ⟨⟨body, hother, hne⟩, ha⟩
  · rintro ⟨⟨body, hother, hne⟩, ha⟩
    exact ⟨body, ha, hother, hne⟩

/-- The specifiers that stay unresolved are those with no other form. -/
theorem length_unresolved (s : Settings) (d : Direction) (path : Path) (text : List Char) :
    (s.pass d path text).unresolved.length = (statementsFor s.token d text).countP fun l =>
      (s.otherForm? path.directory l.statement).isNone := by
  rw [statementsFor, List.countP_filter, statements, pass]
  dsimp only
  rw [List.length_filterMap_eq_countP, ← Piece.countP_locate (fun _ => rfl) 0]
  refine List.countP_congr ?_
  intro l _
  rw [isSome_unresolved?_iff, judge_eq_unresolved_iff, Bool.and_eq_true, Option.isNone_iff_eq_none]
  exact and_comm

/-! ## A specifier and its other form -/

/-- Marks start with a dot, a valid token does not. -/
theorem startApart_climb (ht : AliasToken.Valid s.token) (n : Nat) (t u : List Char) :
    StartApart (climb n ++ t) (s.token ++ u) := by
  obtain ⟨dots, hclimb⟩ := climb_eq_cons n
  obtain ⟨c, token, htoken⟩ := List.exists_cons_of_ne_nil ht.1
  refine ⟨'.', dots ++ t, c, token ++ u, by rw [hclimb]; rfl, by rw [htoken]; rfl, ?_⟩
  rintro rfl
  exact ht.2.1 (by rw [htoken]; rfl)

theorem startApart_of_otherForm? (ht : AliasToken.Valid s.token) (hi : i.Legal s.token)
    (h : s.otherForm? dir i = some body) : StartApart body i.body := by
  rcases otherForm?_eq_some h with ⟨subpath, hform, hrel⟩ | ⟨hform, subpath, -, rfl⟩
  · obtain ⟨-, -, down, back, -, rfl⟩ := relativeSpecifier?_eq_some_iff.1 hrel
    rw [← token_subpath_eq_body hi hform]
    exact startApart_climb ht _ _ _
  · obtain ⟨n, hn⟩ := Form.exists_climb_of_isRelative hi.form_eq hform
    rw [hn]
    exact (startApart_climb ht _ _ _).symm

/-! ## Whether a text was changed -/

theorem rewritten_eq_self_or_startApart (ht : AliasToken.Valid s.token) (hi : i.Legal s.token) :
    s.rewritten d dir i = i ∨ StartApart (s.rewritten d dir i).body i.body := by
  by_cases h : ∃ body, s.judge d dir i = .replaced body
  · obtain ⟨body, hb⟩ := h
    obtain ⟨form, hform⟩ := exists_replacement ht hb
    right
    rw [rewritten_of_judge hb hform.reads]
    exact startApart_of_otherForm? ht hi (judge_eq_replaced_iff.1 hb).2.1
  · exact Or.inl (rewritten_eq_self (not_exists.1 h))

/-- A pass that gives back the text has replaced nothing. -/
theorem replaced_eq_zero_of_content_eq (ht : AliasToken.Valid s.token)
    (h : (s.pass d path text).content = text) : (s.pass d path text).replaced = 0 := by
  rw [pass_content] at h
  nth_rewrite 2 [← Piece.render_pieces s.token text] at h
  have hself := Piece.eq_self_of_render_map_eq (fun i _ => sameFrame_rewritten s d _ i)
    (fun i hi => rewritten_eq_self_or_startApart ht (Piece.legal_of_mem_pieces hi)) h
  refine List.countP_eq_zero.2 ?_
  intro p hp hreplaces
  cases p with
  | plain c => cases hreplaces
  | statement i =>
    obtain ⟨body, hb⟩ := replaces_iff.1 hreplaces
    obtain ⟨form, hform⟩ := exists_replacement ht hb
    have hbody := congrArg Import.body (hself i hp)
    rw [rewritten_of_judge hb hform.reads] at hbody
    exact (judge_eq_replaced_iff.1 hb).2.2 hbody

/-- Under a valid token the other form is never the same specifier again. -/
theorem any_otherForm?_iff (ht : AliasToken.Valid s.token) (hi : i.Legal s.token) :
    (s.otherForm? dir i).any (· != i.body) = true ↔ ¬(s.otherForm? dir i).isNone = true := by
  rw [Option.isNone_iff_eq_none, ← ne_eq, Option.ne_none_iff_exists', Option.any_eq_true]
  simp only [bne_iff_ne]
  constructor
  · rintro ⟨body, hbody, -⟩
    exact ⟨body, hbody⟩
  · rintro ⟨body, hbody⟩
    exact ⟨body, hbody, (startApart_of_otherForm? ht hi hbody).ne⟩

/-- Under a valid token a pass tells rightly whether it changed the text, and each statement that it
acts on is either replaced or left unresolved: none is passed over. -/
theorem pass_counts_exact (s : Settings) (d : Direction) (path : Path) (text : List Char)
    (ht : AliasToken.check s.token = .ok ()) :
    ((s.pass d path text).changed = true ↔ (s.pass d path text).content ≠ text) ∧
      ((s.pass d path text).content ≠ text ↔ 0 < (s.pass d path text).replaced) ∧
      (s.pass d path text).replaced + (s.pass d path text).unresolved.length =
        (statementsFor s.token d text).length := by
  have hv := AliasToken.check_eq_ok_iff.1 ht
  have hcontent : (s.pass d path text).content ≠ text ↔ (s.pass d path text).replaced ≠ 0 :=
    not_congr ⟨replaced_eq_zero_of_content_eq hv, content_of_replaced_eq_zero⟩
  refine ⟨?_, hcontent.trans Nat.pos_iff_ne_zero.symm, ?_⟩
  · rw [hcontent, Outcome.changed, bne_iff_ne]
  · rw [replaced_eq_countP, length_unresolved, List.length_eq_countP_add_countP (fun l : Located =>
      (s.otherForm? path.directory l.statement).isNone), Nat.add_comm]
    congr 1
    refine List.countP_congr ?_
    intro l hl
    rw [any_otherForm?_iff hv (legal_of_mem_statements (List.mem_of_mem_filter hl)),
      decide_eq_true_iff]

/-- In a directory with a quote in its name, one specifier that is replaced and one that cannot
be. -/
theorem pass_counts_exact_below_quote :
    let s : Settings := { projectRoot := .ofString "/p" }
    let path := Path.ofString "/p/it's/x.ts"
    let ps : List Piece := [.statement ⟨.named, [' '], .double, "./b".toList, .relativeSame ['b']⟩,
      .plain ';', .statement ⟨.sideEffect, [' '], .double, "../../c".toList, .relativeUp 2 ['c']⟩]
    AliasToken.check s.token = .ok () ∧ (s.pass .toAlias path (Piece.render ps)).replaced = 1 ∧
      (s.pass .toAlias path (Piece.render ps)).content ≠ Piece.render ps ∧
      1 + (s.pass .toAlias path (Piece.render ps)).unresolved.length =
        (statementsFor s.token .toAlias (Piece.render ps)).length := by
  intro s path ps
  have ht : AliasToken.check s.token = .ok () := by decide
  have hpieces : Piece.pieces s.token (Piece.render ps) = ps :=
    Piece.cut_eq_iff.2 ⟨rfl, by decide⟩
  have hone : (s.pass .toAlias path (Piece.render ps)).replaced = 1 := by
    rw [pass, hpieces]
    decide
  obtain ⟨-, hcontent, hsum⟩ := pass_counts_exact s .toAlias path (Piece.render ps) ht
  rw [hone] at hcontent hsum
  exact ⟨ht, hone, hcontent.2 Nat.one_pos, hsum⟩

end Settings

end ImportPaths
