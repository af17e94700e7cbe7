import ImportPaths.Proofs.Source.Import
import ImportPaths.Source.Pieces

/-!
# Pieces that are cut the same way again

`Piece.WellCut` says which lists of pieces come from cutting a text: exactly those that are
well cut (`cut_eq_iff`).  The main statement is about replacing specifiers: when every statement
gets another legal specifier and keeps its keyword, its blanks and its quote, the new text is cut at
the same places (`pieces_render_map`).
-/

namespace ImportPaths

/-- Whether two statements differ in their specifiers only. -/
structure Import.SameFrame (i j : Import) : Prop where
  kind : j.kind = i.kind
  gap : j.gap = i.gap
  quote : j.quote = i.quote

theorem Import.SameFrame.opening {i j : Import} (h : i.SameFrame j) : j.opening = i.opening := by
  rw [Import.opening, Import.opening, h.kind, h.gap, h.quote]

namespace Piece

variable {token s rest : List Char} {before : Option Char} {i : Import} {ps : List Piece}

/-! ## Cutting -/

theorem render_plain (c : Char) (ps : List Piece) : render (.plain c :: ps) = c :: render ps := rfl

theorem render_statement (i : Import) (ps : List Piece) :
    render (.statement i :: ps) = i.text ++ render ps := rfl

theorem statementAt?_eq_some_iff :
    statementAt? token before s = some (i, rest) ↔
      startsWord before = true ∧ i.Legal token ∧ s = i.text ++ rest := by
  rw [statementAt?]
  split
  · rename_i hw
    rw [Import.read?_eq_some_iff]
    exact ⟨fun h => ⟨hw, h⟩, fun h => h.2⟩
  · rename_i hw
    constructor
    · intro h
      cases h
    · intro h
      exact absurd h.1 hw

/-- Pieces of which each is what a reader finds who goes from left to right. -/
def WellCut (token : List Char) : Option Char → List Piece → Prop
  | _, [] => True
  | before, .plain c :: ps =>
    statementAt? token before (c :: render ps) = none ∧ WellCut token (some c) ps
  | before, .statement i :: ps =>
    startsWord before = true ∧ i.Legal token ∧ WellCut token (some i.quote.toChar) ps

instance decidableWellCut (token : List Char) :
    (before : Option Char) → (ps : List Piece) → Decidable (WellCut token before ps)
  | _, [] => .isTrue trivial
  | before, .plain c :: ps =>
    have := decidableWellCut token (some c) ps
    inferInstanceAs (Decidable (statementAt? token before (c :: render ps) = none ∧
      WellCut token (some c) ps))
  | before, .statement i :: ps =>
    have := decidableWellCut token (some i.quote.toChar) ps
    inferInstanceAs (Decidable (startsWord before = true ∧ i.Legal token ∧
      WellCut token (some i.quote.toChar) ps))

theorem wellCut_cut (token : List Char) (before : Option Char) (s : List Char) :
    WellCut token before (cut token before s) := by
  fun_induction cut token before s with
  | case1 => trivial
  | case2 before c s i rest h ih =>
    obtain ⟨hw, hi, -⟩ := statementAt?_eq_some_iff.1 h
    exact ⟨hw, hi, ih⟩
  | case3 before c s h ih =>
    refine ⟨?_, ih⟩
    rw [render_cut]
    exact h

theorem cut_of_statementAt? (h : statementAt? token before s = some (i, rest)) :
    cut token before s = .statement i :: cut token (some i.quote.toChar) rest := by
  cases s with
  | nil =>
    have hlength := Import.length_rest_lt (read?_of_statementAt? h)
    cases hlength
  | cons c s =>
    rw [cut]
    split
    · rename_i j rest' h'
      rw [h] at h'
      cases h'
      rfl
    · rename_i h'
      rw [h] at h'
      cases h'

theorem cut_cons_of_statementAt? {c : Char} (h : statementAt? token before (c :: s) = none) :
    cut token before (c :: s) = .plain c :: cut token (some c) s := by
  rw [cut]
  split
  · rename_i j rest' h'
    rw [h] at h'
    cases h'
  · rfl

theorem WellCut.cut_render (h : WellCut token before ps) : cut token before (render ps) = ps := by
  induction ps generalizing before with
  | nil =>
    rw [render_nil, cut]
  | cons p ps ih =>
    cases p with
    | plain c =>
      rw [render_plain, cut_cons_of_statementAt? h.1, ih h.2]
    | statement i =>
      obtain ⟨hw, hi, hps⟩ := h
      rw [render_statement, cut_of_statementAt? (statementAt?_eq_some_iff.2 ⟨hw, hi, rfl⟩), ih hps]

/-- The pieces of a text are the well-cut pieces that write it. -/
theorem cut_eq_iff : cut token before s = ps ↔ render ps = s ∧ WellCut token before ps := by
  constructor
  · rintro rfl
    exact ⟨render_cut token before s, wellCut_cut token before s⟩
  · rintro ⟨rfl, h⟩
    exact h.cut_render

theorem WellCut.legal (h : WellCut token before ps) (hi : .statement i ∈ ps) : i.Legal token := by
  induction ps generalizing before with
  | nil => cases hi
  | cons p ps ih =>
    cases p with
    | plain c =>
      rcases List.mem_cons.1 hi with hi | hi
      · cases hi
      · exact ih h.2 hi
    | statement j =>
      rcases List.mem_cons.1 hi with hi | hi
      · cases hi
        exact h.2.1
      · exact ih h.2.2 hi

theorem legal_of_mem_pieces (hi : .statement i ∈ pieces token s) : i.Legal token :=
  (wellCut_cut token none s).legal hi

/-- A legal statement alone is one piece. -/
theorem pieces_text (hi : i.Legal token) : pieces token i.text = [.statement i] := by
  refine cut_eq_iff.2 ⟨?_, rfl, hi, trivial⟩
  rw [render_statement, render_nil, List.append_nil]

/-! ## Replacing specifiers -/

/-- A piece with its statement changed. -/
def mapStatement (f : Import → Import) : Piece → Piece
  | .plain c => .plain c
  | .statement i => .statement (f i)

/-- Two texts that differ in specifiers agree up to the opening quote of the first statement. -/
theorem render_map_agree {f : Import → Import} (hf : ∀ i, .statement i ∈ ps → i.SameFrame (f i)) :
    render (ps.map (mapStatement f)) = render ps ∨
      ∃ x i u u', .statement i ∈ ps ∧ render ps = x ++ (i.opening ++ u) ∧
        render (ps.map (mapStatement f)) = x ++ (i.opening ++ u') := by
  induction ps with
  | nil => exact Or.inl rfl
  | cons p ps ih =>
    cases p with
    | plain c =>
      rcases ih fun i hi => hf i (List.mem_cons_of_mem _ hi) with h | ⟨x, i, u, u', hi, h, h'⟩
      · left
        exact congrArg (c :: ·) h
      · right
        exact ⟨c :: x, i, u, u', List.mem_cons_of_mem _ hi, congrArg (c :: ·) h,
          congrArg (c :: ·) h'⟩
    | statement i =>
      right
      have hopen := (hf i List.mem_cons_self).opening
      refine ⟨[], i, i.body ++ [i.quote.toChar] ++ render ps,
        (f i).body ++ [(f i).quote.toChar] ++ render (ps.map (mapStatement f)),
        List.mem_cons_self, ?_, ?_⟩
      · rw [render_statement, Import.text, List.append_assoc, List.nil_append]
      · rw [List.map_cons, mapStatement, render_statement, Import.text, hopen, List.append_assoc,
          List.nil_append]

/-- No new statement appears in front when the specifiers behind are replaced. -/
theorem statementAt?_render_map {f : Import → Import} {c : Char}
    (hf : ∀ i, .statement i ∈ ps → i.SameFrame (f i))
    (hlegal : ∀ i, .statement i ∈ ps → i.Legal token)
    (h : statementAt? token before (c :: render ps) = none) :
    statementAt? token before (c :: render (ps.map (mapStatement f))) = none := by
  rcases render_map_agree hf with heq | ⟨x, i, u, u', hi, hold, hnew⟩
  · rw [heq]
    exact h
  · rw [Option.eq_none_iff_forall_ne_some]
    rintro ⟨j, rest⟩ hj
    obtain ⟨hw, hjl, htext⟩ := statementAt?_eq_some_iff.1 hj
    -- a statement found now ends before the first specifier, so it stood in the old text as well
    rw [hnew, ← List.cons_append] at htext
    obtain ⟨v, hv⟩ := (hlegal i hi).text_prefix_of_opening hjl (List.cons_ne_nil c x) htext.symm
    have hfound : statementAt? token before (c :: render ps) = some (j, v ++ u) := by
      refine statementAt?_eq_some_iff.2 ⟨hw, hjl, ?_⟩
      rw [hold, ← List.cons_append, ← List.append_assoc, ← List.append_assoc, hv]
    rw [h] at hfound
    cases hfound

theorem WellCut.map {f : Import → Import} (hf : ∀ i, .statement i ∈ ps → i.SameFrame (f i))
    (hlegal : ∀ i, .statement i ∈ ps → (f i).Legal token) (h : WellCut token before ps) :
    WellCut token before (ps.map (mapStatement f)) := by
  induction ps generalizing before with
  | nil => trivial
  | cons p ps ih =>
    have hf' := fun i hi => hf i (List.mem_cons_of_mem p hi)
    have hlegal' := fun i hi => hlegal i (List.mem_cons_of_mem p hi)
    cases p with
    | plain c =>
      exact ⟨statementAt?_render_map hf' (fun i hi => h.2.legal hi) h.1, ih hf' hlegal' h.2⟩
    | statement i =>
      have hquote := (hf i List.mem_cons_self).quote
      refine ⟨h.1, hlegal i List.mem_cons_self, ?_⟩
      rw [hquote]
      exact ih hf' hlegal' h.2.2

/-- A text with other specifiers is cut at the same places. -/
theorem pieces_render_map {f : Import → Import}
    (hf : ∀ i, .statement i ∈ pieces token s → i.SameFrame (f i) ∧ (f i).Legal token) :
    pieces token (render ((pieces token s).map (mapStatement f))) =
      (pieces token s).map (mapStatement f) :=
  ((wellCut_cut token none s).map (fun i hi => (hf i hi).1) fun i hi => (hf i hi).2).cut_render

/-! ## The statements of a text -/

/-- The statement of a piece that is one. -/
def statement? : Piece → Option Import
  | .plain _ => none
  | .statement i => some i

theorem mem_filterMap_statement? : i ∈ ps.filterMap statement? ↔ .statement i ∈ ps := by
  rw [List.mem_filterMap]
  constructor
  · rintro ⟨p, hp, hi⟩
    cases p <;> cases hi
    exact hp
  · intro h
    exact ⟨_, h, rfl⟩

theorem filterMap_statement?_map (f : Import → Import) (ps : List Piece) :
    (ps.map (mapStatement f)).filterMap statement? = (ps.filterMap statement?).map f := by
  rw [List.filterMap_map, List.map_filterMap]
  refine List.filterMap_congr ?_
  intro p _
  cases p <;> rfl

theorem map_statement_locate (start : Nat) (ps : List Piece) :
    (locate start ps).map Located.statement = ps.filterMap statement? := by
  induction ps generalizing start with
  | nil => rfl
  | cons p ps ih =>
    cases p with
    | plain c => exact ih _
    | statement i => exact congrArg (i :: ·) (ih _)

end Piece

/-- The statements of a text are those among its pieces. -/
theorem map_statement_statements (token s : List Char) :
    (statements token s).map Located.statement =
      (Piece.pieces token s).filterMap Piece.statement? :=
  Piece.map_statement_locate 0 _

theorem legal_of_mem_statements {token s : List Char} {l : Located} (h : l ∈ statements token s) :
    l.statement.Legal token := by
  have hmem : l.statement ∈ (statements token s).map Located.statement := List.mem_map_of_mem h
  rw [map_statement_statements] at hmem
  exact Piece.legal_of_mem_pieces (Piece.mem_filterMap_statement?.1 hmem)

/-- A legal statement alone is found. -/
theorem map_statement_statements_text {token : List Char} {i : Import} (hi : i.Legal token) :
    (statements token i.text).map Located.statement = [i] := by
  rw [map_statement_statements, Piece.pieces_text hi]
  rfl

end ImportPaths
