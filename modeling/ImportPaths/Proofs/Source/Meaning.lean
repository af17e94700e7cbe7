import ImportPaths.Proofs.Source.Carried
import Mathlib.Data.List.Forall2

/-!
# What passes keep

For a valid token, and paths whose names hold no quote and no line break:

* a pass keeps what every statement means, and rewrites nothing but specifiers
  (`pass_preserves_meaning`);
* a second pass in the same direction finds nothing left to do (`pass_pass`);
* making everything relative first does not change what the pass to the alias root produces
  (`toAlias_toRelative`).

Paths are not checked for such names, so passes can go wrong; they do precisely where one of the
names that are taken over into specifiers holds a quote or a line break
(`writesLegibly_iff_carried`).
-/

namespace ImportPaths.Settings

open ImportPaths.Path

variable {s : Settings} {d : Direction} {dir path : Path} {i : Import} {body : List Char}

/-! ## Every statement keeps its meaning -/

/-- What a pass in the direction `d` may make of the statement `i` of a file in `dir`: keyword,
quote and blanks stay, and so does the place that is named.  The statement changes only where its
specifier is replaced, and then it is in the form that the direction leads to. -/
structure Preserves (s : Settings) (d : Direction) (dir : Path) (i j : Import) : Prop where
  kind : j.kind = i.kind
  quote : j.quote = i.quote
  gap : j.gap = i.gap
  target : j.target s.projectRoot dir = i.target s.projectRoot dir
  replaced : ∀ body, s.judge d dir i = .replaced body →
    j.body = body ∧ d.leadsTo j.form = true
  unchanged : (∀ body, s.judge d dir i ≠ .replaced body) → j = i

theorem preserves_rewritten (ht : AliasToken.Valid s.token) :
    s.Preserves d dir i (s.rewritten d dir i) := by
  have hframe := sameFrame_rewritten s d dir i
  by_cases h : ∃ body, s.judge d dir i = .replaced body
  · obtain ⟨body, hb⟩ := h
    obtain ⟨form, hform⟩ := exists_replacement ht hb
    have heq := rewritten_of_judge hb hform.reads
    refine ⟨hframe.kind, hframe.quote, hframe.gap, ?_, ?_, fun hnot => absurd hb (hnot body)⟩
    · rw [heq]
      exact hform.target
    · intro body' hb'
      rw [hb] at hb'
      cases hb'
      rw [heq]
      exact ⟨rfl, hform.leads⟩
  · have heq := rewritten_eq_self (not_exists.1 h)
    refine ⟨hframe.kind, hframe.quote, hframe.gap, ?_, ?_, fun _ => heq⟩
    · rw [heq]
    · intro body hb
      exact absurd ⟨body, hb⟩ h

/-- Where all that is written can be read again, the statements keep their meaning one by one. -/
theorem forall₂_preserves (ht : AliasToken.Valid s.token)
    (hw : s.WritesReadable d path.directory) (text : List Char) :
    List.Forall₂ (fun l l' => s.Preserves d path.directory l.statement l'.statement)
      (statements s.token text) (statements s.token (s.pass d path text).content) := by
  have hmap : List.Forall₂ (s.Preserves d path.directory)
      ((statements s.token text).map Located.statement)
      ((statements s.token (s.pass d path text).content).map Located.statement) := by
    rw [map_statement_pass ht hw, List.forall₂_map_right_iff, List.forall₂_same]
    intro i _
    exact preserves_rewritten ht
  rwa [List.forall₂_map_left_iff, List.forall₂_map_right_iff] at hmap

/-- A pass keeps the number of statements and, one by one, what they mean. -/
theorem pass_preserves_meaning (s : Settings) (d : Direction) (path : Path) (text : List Char)
    (ht : AliasToken.check s.token = .ok ()) (hp : path.IsQuotable)
    (hr : s.projectRoot.IsQuotable) :
    List.Forall₂ (fun l l' => s.Preserves d path.directory l.statement l'.statement)
      (statements s.token text) (statements s.token (s.pass d path text).content) := by
  have hv := AliasToken.check_eq_ok_iff.1 ht
  exact forall₂_preserves hv (writesReadable_of_isQuotable hv hp.directory hr) text

/-- A file that imports its neighbour. -/
theorem pass_preserves_meaning_of_neighbour :
    let s : Settings := { projectRoot := .ofString "/p" }
    let path := Path.ofString "/p/a/x.ts"
    let i : Import := ⟨.named, [' '], .single, "./b".toList, .relativeSame ['b']⟩
    AliasToken.check s.token = .ok () ∧ path.IsQuotable ∧ s.projectRoot.IsQuotable ∧
      s.judge .toAlias path.directory i = .replaced "@/a/b".toList ∧
      List.Forall₂ (fun l l' => s.Preserves .toAlias path.directory l.statement l'.statement)
        (statements s.token i.text) (statements s.token (s.pass .toAlias path i.text).content) := by
  intro s path i
  have ht : AliasToken.check s.token = .ok () := by decide
  have hp : path.IsQuotable := by decide
  have hr : s.projectRoot.IsQuotable := by decide
  exact ⟨ht, hp, hr, by decide, pass_preserves_meaning s .toAlias path i.text ht hp hr⟩

/-! ## A second pass -/

/-- A specifier that was replaced is none of the business of a second pass. -/
theorem judge_rewritten (ht : AliasToken.Valid s.token) (h : s.judge d dir i = .replaced body) :
    s.judge d dir (s.rewritten d dir i) = .kept := by
  obtain ⟨form, hform⟩ := exists_replacement ht h
  rw [rewritten_of_judge h hform.reads, judge, Direction.accepts_eq, hform.leads]
  rfl

theorem judge_rewritten_ne (ht : AliasToken.Valid s.token) (i : Import) (body : List Char) :
    s.judge d dir (s.rewritten d dir i) ≠ .replaced body := by
  by_cases h : ∃ body, s.judge d dir i = .replaced body
  · obtain ⟨body', hb⟩ := h
    rw [judge_rewritten ht hb]
    exact Verdict.noConfusion
  · rw [rewritten_eq_self (not_exists.1 h)]
    exact not_exists.1 h body

theorem unresolved?_rewritten (ht : AliasToken.Valid s.token) (i : Import) :
    Verdict.unresolved? (s.judge d dir) (.statement (s.rewritten d dir i)) =
      Verdict.unresolved? (s.judge d dir) (.statement i) := by
  by_cases h : ∃ body, s.judge d dir i = .replaced body
  · obtain ⟨body, hb⟩ := h
    rw [Verdict.unresolved?, Verdict.unresolved?, judge_rewritten ht hb, hb]
  · rw [rewritten_eq_self (not_exists.1 h)]

/-- Two passes one after the other write what a third one writes, when they make the same of each
statement. -/
theorem content_pass_pass {d₁ d₂ : Direction} (ht : AliasToken.Valid s.token)
    (hw : s.WritesReadable d₁ path.directory)
    (h : ∀ i, i.Legal s.token → s.rewritten d₂ path.directory (s.rewritten d₁ path.directory i) =
      s.rewritten d path.directory i) (text : List Char) :
    (s.pass d₂ path (s.pass d₁ path text).content).content = (s.pass d path text).content := by
  rw [pass_content s d₂, pieces_pass ht hw, List.map_map, pass_content s d]
  refine congrArg Piece.render (List.map_congr_left ?_)
  intro p hmem
  cases p with
  | plain c => rfl
  | statement i => exact congrArg Piece.statement (h i (Piece.legal_of_mem_pieces hmem))

/-- A pass that replaces nothing leaves the text as it is. -/
theorem content_of_replaced_eq_zero {text : List Char}
    (h : (s.pass d path text).replaced = 0) : (s.pass d path text).content = text := by
  have hsame : (Piece.pieces s.token text).map
      (Piece.mapStatement (s.rewritten d path.directory)) = Piece.pieces s.token text := by
    refine (List.map_congr_left ?_).trans (List.map_id _)
    intro p hmem
    cases p with
    | plain c => rfl
    | statement i =>
      refine congrArg Piece.statement (rewritten_eq_self ?_)
      intro body hb
      refine List.countP_eq_zero.1 h _ hmem ?_
      rw [Verdict.replaces, hb]
  rw [pass_content, hsame, Piece.render_pieces]

/-- A second pass over a text gives the outcome of the first one again, but replaces nothing. -/
theorem pass_again (ht : AliasToken.Valid s.token) (hw : s.WritesReadable d path.directory)
    (text : List Char) :
    s.pass d path (s.pass d path text).content = { s.pass d path text with replaced := 0 } := by
  have hreplaced : (s.pass d path (s.pass d path text).content).replaced = 0 := by
    refine List.countP_eq_zero.2 ?_
    rw [pieces_pass ht hw]
    refine List.forall_mem_map.2 ?_
    rintro (c | i) _
    · exact Bool.false_ne_true
    · cases hjudge : s.judge d path.directory (s.rewritten d path.directory i) with
      | replaced body => exact absurd hjudge (judge_rewritten_ne ht i body)
      | kept | unresolved => simp [Piece.mapStatement, Verdict.replaces, hjudge]
  have hunresolved : (s.pass d path (s.pass d path text).content).unresolved =
      (s.pass d path text).unresolved := by
    rw [pass, pieces_pass ht hw]
    refine (List.filterMap_map ..).trans (List.filterMap_congr ?_)
    rintro (c | i) _
    · rfl
    · exact unresolved?_rewritten ht i
  have heta (o : Outcome) : o = ⟨o.content, o.replaced, o.unresolved⟩ := rfl
  rw [heta (s.pass d path (s.pass d path text).content), content_of_replaced_eq_zero hreplaced,
    hreplaced, hunresolved]

/-- A second pass in the same direction replaces nothing and leaves the same specifiers
unresolved. -/
theorem pass_pass (s : Settings) (d : Direction) (path : Path) (text : List Char)
    (ht : AliasToken.check s.token = .ok ()) (hp : path.IsQuotable)
    (hr : s.projectRoot.IsQuotable) :
    (s.pass d path (s.pass d path text).content).content = (s.pass d path text).content ∧
      (s.pass d path (s.pass d path text).content).changed = false ∧
      (s.pass d path (s.pass d path text).content).replaced = 0 ∧
      (s.pass d path (s.pass d path text).content).unresolved =
        (s.pass d path text).unresolved := by
  have hv := AliasToken.check_eq_ok_iff.1 ht
  rw [pass_again hv (writesReadable_of_isQuotable hv hp.directory hr)]
  exact ⟨rfl, rfl, rfl, rfl⟩

/-- A file that imports its neighbour, and what it cannot express: the first pass replaces one
specifier, the second none. -/
theorem pass_pass_of_neighbour :
    let s : Settings := { projectRoot := .ofString "/p" }
    let path := Path.ofString "/p/a/x.ts"
    let ps : List Piece := [.statement ⟨.named, [' '], .single, "./b".toList, .relativeSame ['b']⟩,
      .plain ';', .statement ⟨.sideEffect, [' '], .double, "../../c".toList, .relativeUp 2 ['c']⟩]
    AliasToken.check s.token = .ok () ∧ path.IsQuotable ∧ s.projectRoot.IsQuotable ∧
      (s.pass .toAlias path (Piece.render ps)).replaced = 1 ∧
      (s.pass .toAlias path (s.pass .toAlias path (Piece.render ps)).content).replaced = 0 ∧
      (s.pass .toAlias path (s.pass .toAlias path (Piece.render ps)).content).unresolved =
        ["../../c".toList] := by
  intro s path ps
  have ht : AliasToken.check s.token = .ok () := by decide
  have hp : path.IsQuotable := by decide
  have hr : s.projectRoot.IsQuotable := by decide
  have hpieces : Piece.pieces s.token (Piece.render ps) = ps :=
    Piece.cut_eq_iff.2 ⟨rfl, by decide⟩
  obtain ⟨-, -, hnone, hsame⟩ := pass_pass s .toAlias path (Piece.render ps) ht hp hr
  refine ⟨ht, hp, hr, ?_, hnone, hsame.trans ?_⟩
  · rw [pass, hpieces]
    decide
  · rw [pass, hpieces]
    decide

/-! ## First to relative specifiers, then to the alias root -/

/-- A statement that does not have the form a pass acts on stays. -/
theorem rewritten_of_leadsTo (h : d.leadsTo i.form = true) : s.rewritten d dir i = i := by
  refine rewritten_eq_self ?_
  intro body hb
  have haccept := (judge_eq_replaced_iff.1 hb).1
  rw [Direction.accepts_eq, h] at haccept
  cases haccept

/-- What was made relative is made alias-rooted as it was before. -/
theorem rewritten_toAlias_rewritten_toRelative (ht : AliasToken.Valid s.token)
    (hi : i.Legal s.token) :
    s.rewritten .toAlias dir (s.rewritten .toRelative dir i) = s.rewritten .toAlias dir i := by
  by_cases h : ∃ body, s.judge .toRelative dir i = .replaced body
  · obtain ⟨body, hb⟩ := h
    obtain ⟨haccept, hother, hne⟩ := judge_eq_replaced_iff.1 hb
    rcases otherForm?_eq_some hother with ⟨subpath, hform, hrel⟩ | ⟨hform, -⟩
    · obtain ⟨-, -, down, back, -, hclimb⟩ := relativeSpecifier?_eq_some_iff.1 hrel
      obtain ⟨form, hread, hrelative⟩ := Form.ofBody?_climb ht back.length (joinSegments down)
      rw [← hclimb] at hread
      have hback : s.judge .toAlias dir { i with body, form } = .replaced i.body := by
        refine judge_eq_replaced_iff.2 ⟨hrelative, ?_, hne.symm⟩
        rw [otherForm?_of_isRelative hrelative, aliasSubpath?_of_relativeSpecifier? hrel,
          Option.map_some, token_subpath_eq_body hi hform]
      rw [rewritten_of_judge hb hread, rewritten_of_judge hback hi.form_eq, rewritten_of_leadsTo]
      rw [hform]
      rfl
    · rw [Direction.accepts_eq, Direction.leadsTo, hform] at haccept
      cases haccept
  · rw [rewritten_eq_self (not_exists.1 h)]

/-- Going to relative specifiers first does not change what the pass to the alias root produces.  A
text in which that pass has nothing to rewrite comes back as it was. -/
theorem toAlias_toRelative (s : Settings) (path : Path) (text : List Char)
    (ht : AliasToken.check s.token = .ok ()) (hp : path.IsQuotable)
    (hr : s.projectRoot.IsQuotable) :
    (s.pass .toAlias path (s.pass .toRelative path text).content).content =
        (s.pass .toAlias path text).content ∧
      ((s.pass .toAlias path text).replaced = 0 →
        (s.pass .toAlias path (s.pass .toRelative path text).content).content = text) := by
  have hv := AliasToken.check_eq_ok_iff.1 ht
  have hsame := content_pass_pass hv (writesReadable_of_isQuotable hv hp.directory hr)
    (fun i hi => rewritten_toAlias_rewritten_toRelative hv hi) text
  refine ⟨hsame, ?_⟩
  intro hnone
  rw [hsame]
  exact content_of_replaced_eq_zero hnone

/-- An alias-rooted neighbour becomes relative and comes back. -/
theorem toAlias_toRelative_of_neighbour :
    let s : Settings := { projectRoot := .ofString "/p" }
    let path := Path.ofString "/p/a/x.ts"
    let i : Import := ⟨.sideEffect, [' '], .double, "@/a/c".toList, .aliasRooted "a/c".toList⟩
    AliasToken.check s.token = .ok () ∧ path.IsQuotable ∧ s.projectRoot.IsQuotable ∧
      s.judge .toRelative path.directory i = .replaced "./c".toList ∧
      (s.pass .toAlias path (s.pass .toRelative path i.text).content).content = i.text := by
  intro s path i
  have ht : AliasToken.check s.token = .ok () := by decide
  have hp : path.IsQuotable := by decide
  have hr : s.projectRoot.IsQuotable := by decide
  have hi : i.Legal s.token := by decide
  have hnone : (s.pass .toAlias path i.text).replaced = 0 := by
    rw [pass, Piece.pieces_text hi]
    decide
  exact ⟨ht, hp, hr, by decide, (toAlias_toRelative s path i.text ht hp hr).2 hnone⟩

/-! ## Passes that go wrong -/

/-- A pass over a text goes well when no new specifier is empty or holds a quote or a line break,
and the statements of the new text are the old ones with their new specifiers. -/
structure WritesLegibly (s : Settings) (d : Direction) (path : Path) (text : List Char) :
    Prop where
  legal : ∀ l ∈ statements s.token text, ∀ body,
    s.judge d path.directory l.statement = .replaced body →
      body ≠ [] ∧ ∀ c ∈ body, isBodyChar c = true
  kept : List.Forall₂ (fun l l' => s.Preserves d path.directory l.statement l'.statement)
    (statements s.token text) (statements s.token (s.pass d path text).content)

/-- A pass writes readable specifiers when it goes well on every text. -/
theorem writesReadable_of_writesLegibly {path : Path} (h : ∀ text, s.WritesLegibly d path text) :
    s.WritesReadable d path.directory := by
  intro i hi body hjudge
  have hfound : i ∈ (statements s.token i.text).map Located.statement := by
    rw [map_statement_statements_text hi]
    exact List.mem_cons_self
  obtain ⟨l, hl, rfl⟩ := List.mem_map.1 hfound
  exact ((h _).legal l hl body hjudge).2

/-- The passes over a file go well on every text precisely when the names that they take over hold
no quote and no line break.  Nothing that is written is empty in any case. -/
theorem writesLegibly_iff_carried (s : Settings) (cwd path : Path) (d : Direction)
    (hs : (s.anchored cwd).check = .ok ()) :
    (∀ i body, (s.anchored cwd).judge d path.directory i = .replaced body → body ≠ []) ∧
      ((∀ text, (s.anchored cwd).WritesLegibly d path text) ↔
        ∀ name ∈ (s.anchored cwd).carried path.directory d, ∀ c ∈ name, isBodyChar c = true) := by
  have ht := valid_of_check hs
  have hroot : (s.anchored cwd).projectRoot.clean = (s.anchored cwd).projectRoot := clean_clean _
  have hne : ∀ i body, (s.anchored cwd).judge d path.directory i = .replaced body → body ≠ [] := by
    intro i body hjudge
    obtain ⟨form, hform⟩ := exists_replacement ht hjudge
    exact hform.body_ne_nil
  refine ⟨hne, ?_⟩
  rw [← writesReadable_iff_carried ht hroot]
  constructor
  · exact writesReadable_of_writesLegibly
  · intro hw text
    refine ⟨?_, forall₂_preserves ht hw text⟩
    intro l hl body hjudge
    exact ⟨hne _ body hjudge, hw _ (legal_of_mem_statements hl) body hjudge⟩

/-- In a directory with a quote in its name, a pass to the alias root may go wrong, and a pass to
relative specifiers does not. -/
theorem writesLegibly_below_quote :
    let s : Settings := { scanRoot := .ofString "/p", projectRoot := .ofString "/p" }
    let path := Path.ofString "/p/it's/x.ts"
    (s.anchored (.ofString "/")).check = .ok () ∧
      path.startsWith (s.anchored (.ofString "/")).scanRoot = true ∧
      (¬∀ text, (s.anchored (.ofString "/")).WritesLegibly .toAlias path text) ∧
      ∀ text, (s.anchored (.ofString "/")).WritesLegibly .toRelative path text := by
  intro s path
  have hs : (s.anchored (.ofString "/")).check = .ok () := by decide
  refine ⟨hs, by decide, ?_, ?_⟩
  · rw [(writesLegibly_iff_carried s (.ofString "/") path .toAlias hs).2]
    intro h
    have hquote : isBodyChar '\'' = true := h "it's".toList (by decide) '\'' (by decide)
    cases hquote
  · rw [(writesLegibly_iff_carried s (.ofString "/") path .toRelative hs).2]
    have hnone : (s.anchored (.ofString "/")).carried path.directory .toRelative = [] := by decide
    rw [hnone]
    simp

/-- There a statement gets a specifier with a quote in it, and is no statement any more. -/
theorem pass_loses_statement :
    let s := anchored { scanRoot := .ofString "/p", projectRoot := .ofString "/p" } (.ofString "/")
    let i : Import := ⟨.sideEffect, [' '], .double, "./b".toList, .relativeSame ['b']⟩
    let out := (s.pass .toAlias (.ofString "/p/it's/x.ts") i.text).content
    (statements s.token i.text).map Located.statement = [i] ∧
      out = "import \"@/it's/b\"".toList ∧ statements s.token out = [] := by
  intro s i out
  have hi : i.Legal s.token := by decide
  have hout : out = "import \"@/it's/b\"".toList := by
    change (s.pass .toAlias (.ofString "/p/it's/x.ts") i.text).content = _
    rw [pass, Piece.pieces_text hi]
    decide
  have hpieces : Piece.pieces s.token out = out.map .plain := by
    rw [hout]
    exact Piece.cut_eq_iff.2 (by decide)
  refine ⟨map_statement_statements_text hi, hout, ?_⟩
  rw [statements, hpieces, hout]
  decide

end ImportPaths.Settings
