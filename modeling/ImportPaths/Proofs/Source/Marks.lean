import ImportPaths.Proofs.Source.Meaning

/-!
# The look for marks

`hasCandidates` is a plain search for a quote with a mark of the direction behind it
(`hasCandidates_iff`).  It may find what is no statement, but it misses none that a pass acts on
(`hasCandidates_of_statement`): the specifier of such a statement starts with a mark, and a quote
stands before it.  So a text that the search rules out has no statement for the pass
(`statementsFor_of_not_hasCandidates`), and the pass over it gives the text back, with nothing to
report (`pass_of_not_hasCandidates`).
-/

namespace ImportPaths

/-- The search finds exactly the stretches of a text. -/
theorem Text.occursIn_iff_infix {needle s : List Char} :
    Text.occursIn needle s = true ↔ needle <:+: s := by
  induction s with
  | nil => rw [Text.occursIn, List.isEmpty_iff, List.infix_nil]
  | cons c s ih =>
    rw [Text.occursIn, Bool.or_eq_true, ih, List.isPrefixOf_iff_prefix, List.infix_cons_iff]

/-- A specifier that a pass acts on starts with a mark of the direction. -/
theorem Form.Describes.exists_mark {token body : List Char} {form : Form} {d : Direction}
    (h : Form.Describes token body form) (ha : d.accepts form = true) :
    ∃ mark ∈ d.marks token, mark <+: body := by
  cases d with
  | toAlias =>
    cases h with
    | aliasRooted => cases ha
    | relativeUp hhops =>
      exact ⟨upMark, by simp [Direction.marks], Form.upMark_prefix_upMarks hhops _⟩
    | relativeSame => exact ⟨sameMark, by simp [Direction.marks], List.prefix_append _ _⟩
  | toRelative =>
    cases h with
    | @aliasRooted subpath =>
      refine ⟨token ++ ['/'], by simp [Direction.marks], subpath, ?_⟩
      rw [List.append_assoc, List.singleton_append]
    | relativeUp => cases ha
    | relativeSame => cases ha

variable {token text : List Char} {d : Direction} {i : Import}

/-- What stands at the start of a specifier stands behind a quote. -/
theorem Import.quote_cons_infix {mark : List Char} (h : mark <+: i.body) :
    i.quote.toChar :: mark <:+: i.text := by
  obtain ⟨rest, hrest⟩ := h
  refine ⟨i.kind.keyword ++ i.gap, rest ++ [i.quote.toChar], ?_⟩
  rw [Import.text_eq, ← hrest]
  simp only [List.append_assoc, List.cons_append]

/-- The search finds exactly the quotes with a mark of the direction behind them. -/
theorem hasCandidates_iff :
    hasCandidates token d text = true ↔
      ∃ mark ∈ d.marks token, ∃ quote : Quote, quote.toChar :: mark <:+: text := by
  simp only [hasCandidates, List.any_eq_true, Text.occursIn_iff_infix]
  constructor
  · rintro ⟨mark, hmark, c, hc, hfound⟩
    obtain ⟨quote, rfl⟩ : ∃ quote : Quote, quote.toChar = c := by
      rcases List.mem_pair.1 hc with rfl | rfl
      · exact ⟨.single, rfl⟩
      · exact ⟨.double, rfl⟩
    exact ⟨mark, hmark, quote, hfound⟩
  · rintro ⟨mark, hmark, quote, hfound⟩
    refine ⟨mark, hmark, quote.toChar, ?_, hfound⟩
    cases quote <;> decide

/-- A text with a statement for the pass is not ruled out. -/
theorem hasCandidates_of_statement (hi : .statement i ∈ Piece.pieces token text)
    (ha : d.accepts i.form = true) : hasCandidates token d text = true := by
  have hform := Form.ofBody?_eq_some_iff.1 (Piece.legal_of_mem_pieces hi).form_eq
  obtain ⟨mark, hmark, hfront⟩ := hform.exists_mark ha
  have hstretch : i.text <:+: text := by
    rw [← Piece.render_pieces token text]
    exact List.infix_of_mem_flatten (List.mem_map_of_mem hi)
  exact hasCandidates_iff.2
    ⟨mark, hmark, i.quote, (Import.quote_cons_infix hfront).trans hstretch⟩

/-- A text that was ruled out has no statement for the pass. -/
theorem statementsFor_of_not_hasCandidates (h : hasCandidates token d text = false) :
    statementsFor token d text = [] := by
  refine List.filter_eq_nil_iff.2 ?_
  intro l hl ha
  have hmem : l.statement ∈ (statements token text).map Located.statement := List.mem_map_of_mem hl
  rw [map_statement_statements, Piece.mem_filterMap_statement?] at hmem
  rw [hasCandidates_of_statement hmem ha] at h
  cases h

/-- A pass over a text that was ruled out does nothing and finds nothing. -/
theorem Settings.pass_of_not_hasCandidates {s : Settings} {path : Path}
    (h : hasCandidates s.token d text = false) : s.pass d path text = ⟨text, 0, []⟩ := by
  have hkept (i : Import) (hi : .statement i ∈ Piece.pieces s.token text) :
      s.judge d path.directory i = .kept := by
    rw [Settings.judge, if_neg]
    intro ha
    rw [hasCandidates_of_statement hi ha] at h
    cases h
  have hreplaced : (s.pass d path text).replaced = 0 := by
    refine List.countP_eq_zero.2 ?_
    intro p hp
    cases p with
    | plain c => exact Bool.false_ne_true
    | statement i => simp [Verdict.replaces, hkept i hp]
  have hunresolved : (s.pass d path text).unresolved = [] := by
    refine List.filterMap_eq_nil_iff.2 ?_
    intro p hp
    cases p with
    | plain c => rfl
    | statement i => simp [Verdict.unresolved?, hkept i hp]
  have heta (o : Outcome) : o = ⟨o.content, o.replaced, o.unresolved⟩ := rfl
  rw [heta (s.pass d path text), content_of_replaced_eq_zero hreplaced, hreplaced, hunresolved]

end ImportPaths
