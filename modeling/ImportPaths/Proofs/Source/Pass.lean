import ImportPaths.Proofs.Source.Pieces
import ImportPaths.Proofs.Specifier.Translation
import ImportPaths.Proofs.Token.Kept
import ImportPaths.Source.Pass

/-!
# What a pass makes of each statement

A pass is a map over the statements of a text: `Settings.rewritten` is the statement that takes the
place of another.  Under a valid token, a new specifier is in the other form and names the same
place (`exists_replacement`).  When what is written also fits between quotes (`WritesReadable`), the
new text has exactly the rewritten statements (`pieces_pass`).
-/

namespace ImportPaths

open ImportPaths.Path

/-- The place that a statement of a file in `dir` names. -/
def Import.target (root dir : Path) (i : Import) : Path :=
  match i.form with
  | .aliasRooted subpath => resolveAlias root subpath
  | .relativeUp _ _ | .relativeSame _ => resolveRelative dir i.body

/-- Whether a form is the one that a direction leads to. -/
def Direction.leadsTo : Direction → Form → Bool
  | .toAlias, form => form.isAlias
  | .toRelative, form => form.isRelative

/-- A pass acts on what is not yet in the form it leads to. -/
theorem Direction.accepts_eq (d : Direction) (form : Form) : d.accepts form = !d.leadsTo form := by
  cases d <;> cases form <;> rfl

theorem Import.target_of_isRelative {root dir : Path} {i : Import}
    (h : i.form.isRelative = true) : i.target root dir = resolveRelative dir i.body := by
  unfold Import.target
  cases hform : i.form with
  | aliasRooted subpath =>
    rw [hform] at h
    cases h
  | relativeUp hops subpath => rfl
  | relativeSame subpath => rfl

namespace Settings

variable {s : Settings} {d : Direction} {dir : Path} {i : Import} {body : List Char}

/-! ## Verdicts -/

theorem judge_eq_replaced_iff :
    s.judge d dir i = .replaced body ↔
      d.accepts i.form = true ∧ s.otherForm? dir i = some body ∧ body ≠ i.body := by
  unfold judge
  split
  · rename_i ha
    cases s.otherForm? dir i with
    | none => simp
    | some other =>
      dsimp only
      split
      · rename_i heq
        simp only [reduceCtorEq, Option.some.injEq, false_iff, not_and, ha, true_implies]
        rintro rfl hne
        exact hne heq
      · rename_i hne
        simp only [Verdict.replaced.injEq, ha, true_and, Option.some.injEq]
        constructor
        · rintro rfl
          exact ⟨rfl, hne⟩
        · exact fun h => h.1
  · rename_i ha
    simp [ha]

/-- A specifier gets its other form from one of the two translations. -/
theorem otherForm?_eq_some (h : s.otherForm? dir i = some body) :
    (∃ subpath, i.form = .aliasRooted subpath ∧
      relativeSpecifier? dir subpath s.projectRoot = some body) ∨
    (i.form.isRelative = true ∧ ∃ subpath,
      aliasSubpath? dir i.body s.projectRoot = some subpath ∧
        body = s.token ++ '/' :: subpath) := by
  have hrelative (h : (aliasSubpath? dir i.body s.projectRoot).map
      (fun subpath => s.token ++ '/' :: subpath) = some body) : ∃ subpath,
        aliasSubpath? dir i.body s.projectRoot = some subpath ∧
          body = s.token ++ '/' :: subpath := by
    obtain ⟨subpath, hs, hb⟩ := Option.map_eq_some_iff.1 h
    exact ⟨subpath, hs, hb.symm⟩
  unfold otherForm? at h
  cases hform : i.form with
  | aliasRooted subpath =>
    rw [hform] at h
    dsimp only at h
    split at h
    · cases h
    · exact Or.inl ⟨subpath, rfl, h⟩
  | relativeUp hops subpath =>
    rw [hform] at h
    exact Or.inr ⟨rfl, hrelative h⟩
  | relativeSame subpath =>
    rw [hform] at h
    exact Or.inr ⟨rfl, hrelative h⟩

theorem otherForm?_of_isRelative (h : i.form.isRelative = true) :
    s.otherForm? dir i = (aliasSubpath? dir i.body s.projectRoot).map
      fun subpath => s.token ++ '/' :: subpath := by
  unfold otherForm?
  cases hform : i.form with
  | aliasRooted subpath =>
    rw [hform] at h
    cases h
  | relativeUp hops subpath => rfl
  | relativeSame subpath => rfl

/-- An alias-rooted statement is written with the token and its subpath. -/
theorem token_subpath_eq_body {subpath : List Char} (hi : i.Legal s.token)
    (hform : i.form = .aliasRooted subpath) : s.token ++ '/' :: subpath = i.body := by
  have hwritten := Form.body_of_ofBody? hi.form_eq
  rwa [hform] at hwritten

/-- What a new specifier is: it is not empty, it has the form that the pass leads to, and it names
the place of the old one. -/
structure Replacement (s : Settings) (d : Direction) (dir : Path) (i : Import)
    (body : List Char) (form : Form) : Prop where
  body_ne_nil : body ≠ []
  reads : Form.ofBody? s.token body = some form
  leads : d.leadsTo form = true
  target : { i with body, form }.target s.projectRoot dir = i.target s.projectRoot dir

theorem exists_replacement (ht : AliasToken.Valid s.token)
    (h : s.judge d dir i = .replaced body) : ∃ form, s.Replacement d dir i body form := by
  obtain ⟨haccept, hother, -⟩ := judge_eq_replaced_iff.1 h
  rcases otherForm?_eq_some hother with ⟨subpath, hform, hrel⟩ | ⟨hform, subpath, hsub, rfl⟩
  · have hplace := resolveRelative_of_relativeSpecifier? hrel
    obtain ⟨-, -, down, back, -, rfl⟩ := relativeSpecifier?_eq_some_iff.1 hrel
    obtain ⟨form, hread, hrelative⟩ := Form.ofBody?_climb ht back.length (joinSegments down)
    refine ⟨form, ?_, hread, ?_, ?_⟩
    · obtain ⟨t, hclimb⟩ := climb_eq_cons back.length
      rw [hclimb]
      exact List.cons_ne_nil _ _
    · cases d with
      | toAlias =>
        rw [hform] at haccept
        cases haccept
      | toRelative => exact hrelative
    · rw [Import.target_of_isRelative hrelative, hplace, Import.target, hform]
  · refine ⟨.aliasRooted subpath, by simp, Form.ofBody?_alias (aliasSubpath?_ne_nil hsub), ?_, ?_⟩
    · cases d with
      | toAlias => rfl
      | toRelative =>
        rw [Direction.accepts_eq, Direction.leadsTo, hform] at haccept
        cases haccept
    · rw [Import.target_of_isRelative hform]
      exact resolveAlias_of_aliasSubpath? hsub

/-- Every specifier that a pass writes for a file in `dir` fits between quotes. -/
def WritesReadable (s : Settings) (d : Direction) (dir : Path) : Prop :=
  ∀ i, i.Legal s.token → ∀ body, s.judge d dir i = .replaced body →
    ∀ c ∈ body, isBodyChar c = true

/-! ## The statements of the new text -/

/-- The statement that a pass puts in the place of another. -/
def rewritten (s : Settings) (d : Direction) (dir : Path) (i : Import) : Import :=
  match s.judge d dir i with
  | .replaced body => { i with body, form := (Form.ofBody? s.token body).getD i.form }
  | .kept | .unresolved => i

theorem rewritten_of_judge {form : Form} (h : s.judge d dir i = .replaced body)
    (hform : Form.ofBody? s.token body = some form) :
    s.rewritten d dir i = { i with body, form } := by
  rw [rewritten, h]
  dsimp only
  rw [hform, Option.getD_some]

theorem rewritten_eq_self (h : ∀ body, s.judge d dir i ≠ .replaced body) :
    s.rewritten d dir i = i := by
  unfold rewritten
  split
  · rename_i body hb
    exact absurd hb (h body)
  · rfl
  · rfl

theorem sameFrame_rewritten (s : Settings) (d : Direction) (dir : Path) (i : Import) :
    i.SameFrame (s.rewritten d dir i) := by
  unfold rewritten
  split <;> exact ⟨rfl, rfl, rfl⟩

theorem legal_rewritten (ht : AliasToken.Valid s.token) (hw : s.WritesReadable d dir)
    (hi : i.Legal s.token) : (s.rewritten d dir i).Legal s.token := by
  by_cases h : ∃ body, s.judge d dir i = .replaced body
  · obtain ⟨body, hb⟩ := h
    obtain ⟨form, hform⟩ := exists_replacement ht hb
    rw [rewritten_of_judge hb hform.reads]
    exact ⟨hi.gap_ne_nil, hi.gap_blank, hform.body_ne_nil, hw i hi body hb, hform.reads⟩
  · rw [rewritten_eq_self (not_exists.1 h)]
    exact hi

/-- The text after a pass is written from the rewritten statements. -/
theorem pass_content (s : Settings) (d : Direction) (path : Path) (text : List Char) :
    (s.pass d path text).content =
      Piece.render ((Piece.pieces s.token text).map
        (Piece.mapStatement (s.rewritten d path.directory))) := by
  rw [pass, Piece.render, List.flatMap_map]
  refine List.flatMap_congr ?_
  intro p _
  cases p with
  | plain c => rfl
  | statement i =>
    rw [Verdict.apply, Piece.mapStatement, Piece.text, rewritten]
    cases s.judge d path.directory i <;> rfl

/-- The pieces of the text after a pass are the old ones with their statements rewritten. -/
theorem pieces_pass {path : Path} (ht : AliasToken.Valid s.token)
    (hw : s.WritesReadable d path.directory) (text : List Char) :
    Piece.pieces s.token (s.pass d path text).content =
      (Piece.pieces s.token text).map (Piece.mapStatement (s.rewritten d path.directory)) := by
  rw [pass_content]
  refine Piece.pieces_render_map ?_
  intro i hi
  exact ⟨sameFrame_rewritten s d _ i, legal_rewritten ht hw (Piece.legal_of_mem_pieces hi)⟩

/-- The statements after a pass are the rewritten ones, in their order. -/
theorem map_statement_pass {path : Path} (ht : AliasToken.Valid s.token)
    (hw : s.WritesReadable d path.directory) (text : List Char) :
    (statements s.token (s.pass d path text).content).map Located.statement =
      ((statements s.token text).map Located.statement).map (s.rewritten d path.directory) := by
  rw [map_statement_statements, map_statement_statements, pieces_pass ht hw,
    Piece.filterMap_statement?_map]

end Settings

end ImportPaths
