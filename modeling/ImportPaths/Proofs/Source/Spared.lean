import ImportPaths.Proofs.Source.Edits

/-!
# What a pass leaves alone

A specifier is the whole stretch between two quotes.  Two such stretches are the same or apart
(`between_quotes`), and a stretch without quotes lies before, behind or inside of one
(`Unquoted.before_or_after_or_inside`).  So an edit reaches no quoted text but the specifier that it
replaces, and what makes a quoted text no specifier of the pass also keeps it from being changed:
no form, or the form that the pass leads to; two different quotes; something else than a keyword in
front of it (`Spared.apart`).  Backquotes and calls are not looked for.  They are spared only where
no specifier starts in them or reaches into them (`Settings.pass_changes_template`).

With that, `pass_edits` says all that a pass does to a text.
-/

namespace ImportPaths

open ImportPaths.Text

/-! ## Between quotes -/

/-- No quote stands in a text. -/
def Unquoted (t : List Char) : Prop := ∀ q : Quote, q.toChar ∉ t

theorem unquoted_of_blank {t : List Char} (h : ∀ c ∈ t, isAsciiBlank c = true) : Unquoted t := by
  intro q hq
  have hblank := h _ hq
  rw [q.not_isAsciiBlank] at hblank
  cases hblank

theorem Unquoted.append {t t' : List Char} (h : Unquoted t) (h' : Unquoted t') :
    Unquoted (t ++ t') := by
  intro q hq
  exact (List.mem_append.1 hq).elim (h q) (h' q)

theorem Quote.toChar_inj {q r : Quote} : q.toChar = r.toChar ↔ q = r := by
  cases q <;> cases r <;> decide

section

variable {B C u v w x x' y y' z : List Char} {q q' r r' : Quote}

/-- A stretch without quotes ends before the next quote. -/
theorem Unquoted.prefix_of_append_eq (hB : Unquoted B) (h : B ++ y = z ++ q.toChar :: v) :
    B <+: z := by
  rcases List.append_eq_append_iff.1 h with ⟨t, rfl, -⟩ | ⟨t, rfl, ht⟩
  · exact List.prefix_append B t
  · cases t with
    | nil => simp
    | cons c t =>
      obtain ⟨rfl, -⟩ := List.cons.inj ht
      exact absurd (by simp) (hB q)

/-- From an opening quote on, the next stretch between quotes is this one or comes after it. -/
theorem Unquoted.same_or_prefix (hB : Unquoted B) (hC : Unquoted C)
    (h : q.toChar :: (B ++ r.toChar :: y) = z ++ q'.toChar :: (C ++ r'.toChar :: y')) :
    (z = [] ∧ q = q' ∧ B = C ∧ r = r') ∨ q.toChar :: B <+: z := by
  cases z with
  | nil =>
    left
    obtain ⟨hq, h⟩ := List.cons.inj h
    have hBC := hB.prefix_of_append_eq h
    have hCB := hC.prefix_of_append_eq h.symm
    obtain rfl := hBC.eq_of_length (Nat.le_antisymm hBC.length_le hCB.length_le)
    have hr := (List.cons.inj (List.append_cancel_left h)).1
    exact ⟨rfl, Quote.toChar_inj.1 hq, rfl, Quote.toChar_inj.1 hr⟩
  | cons c z =>
    right
    rw [List.cons_append, List.cons.injEq] at h
    obtain ⟨rfl, h⟩ := h
    exact (List.prefix_cons_inj _).2 (hB.prefix_of_append_eq h)

/-- Two stretches between quotes are the same, or one ends before the other starts. -/
theorem between_quotes (hB : Unquoted B) (hC : Unquoted C)
    (h : x ++ q.toChar :: (B ++ r.toChar :: y) = x' ++ q'.toChar :: (C ++ r'.toChar :: y')) :
    (x = x' ∧ q = q' ∧ B = C ∧ r = r') ∨
      x ++ q.toChar :: B <+: x' ∨ x' ++ q'.toChar :: C <+: x := by
  rcases List.append_eq_append_iff.1 h with ⟨z, rfl, hz⟩ | ⟨z, rfl, hz⟩
  · rcases hB.same_or_prefix hC hz with ⟨rfl, hsame⟩ | hprefix
    · exact Or.inl ⟨by simp, hsame⟩
    · exact Or.inr (Or.inl ((List.prefix_append_right_inj x).2 hprefix))
  · rcases hC.same_or_prefix hB hz with ⟨rfl, rfl, rfl, rfl⟩ | hprefix
    · exact Or.inl ⟨by simp, rfl, rfl, rfl⟩
    · exact Or.inr (Or.inr ((List.prefix_append_right_inj x').2 hprefix))

/-- A stretch without quotes comes before or after what stands between two quotes, or lies in it. -/
theorem Unquoted.before_or_after_or_inside (hw : Unquoted w)
    (h : x ++ q.toChar :: (B ++ r.toChar :: y) = u ++ (w ++ v)) :
    x ++ q.toChar :: B <+: u ∨ u ++ w <+: x ∨
      ∃ z z', u = x ++ q.toChar :: z ∧ B = z ++ (w ++ z') := by
  rcases List.append_eq_append_iff.1 h with ⟨z, rfl, hz⟩ | ⟨z, rfl, hz⟩
  · cases z with
    | nil =>
      have hempty := hw.prefix_of_append_eq (z := []) hz.symm
      rw [List.prefix_nil.1 hempty]
      simp
    | cons c z =>
      rw [List.cons_append, List.cons.injEq] at hz
      obtain ⟨rfl, hz⟩ := hz
      rcases List.append_eq_append_iff.1 hz with ⟨t, rfl, -⟩ | ⟨t, rfl, ht⟩
      · left
        exact ⟨t, by simp⟩
      · -- the stretch starts before the closing quote, and so it ends there
        obtain ⟨z', rfl⟩ := hw.prefix_of_append_eq ht
        exact Or.inr (Or.inr ⟨z, z', rfl, rfl⟩)
  · exact Or.inr (Or.inl ((List.prefix_append_right_inj u).2 (hw.prefix_of_append_eq hz)))

end

/-! ## Around a specifier -/

/-- A keyword and blanks stand at the end of a text. -/
def AfterKeyword (u : List Char) : Prop :=
  ∃ front, ∃ kind : ImportKind, ∃ gap, u = front ++ (kind.keyword ++ gap) ∧ gap ≠ [] ∧
    ∀ c ∈ gap, isAsciiBlank c = true

/-- A text ends inside a specifier: a keyword, blanks and a quote, and nothing behind the quote that
could not stand in a specifier. -/
def InSpecifier (u : List Char) : Prop :=
  ∃ front, ∃ q : Quote, ∃ body, u = front ++ q.toChar :: body ∧ AfterKeyword front ∧
    ∀ c ∈ body, isBodyChar c = true

/-- A parenthesis is no keyword. -/
theorem not_afterKeyword_call (front : List Char) {gap : List Char}
    (hgap : ∀ c ∈ gap, isAsciiBlank c = true) :
    ¬AfterKeyword (front ++ ("import(".toList ++ gap)) := by
  rintro ⟨front', kind, gap', h, -, hgap'⟩
  have hleft : (front ++ ("import(".toList ++ gap)).reverse.dropWhile isAsciiBlank =
      '(' :: ("tropmi".toList ++ front.reverse) := by
    rw [List.reverse_append, List.reverse_append, List.append_assoc]
    exact Import.dropWhile_append_cons (by simpa using hgap) (by decide) _
  have hright : (front' ++ (kind.keyword ++ gap')).reverse.dropWhile isAsciiBlank =
      kind.keyword.reverse ++ front'.reverse := by
    rw [List.reverse_append, List.reverse_append, List.append_assoc]
    cases kind <;> exact Import.dropWhile_append_cons (by simpa using hgap') (by decide) _
  rw [h, hright] at hleft
  cases kind <;> cases hleft

/-- A keyword and blanks behind a quote lie behind it as a whole. -/
theorem AfterKeyword.of_append {x body : List Char} {q : Quote}
    (h : AfterKeyword (x ++ q.toChar :: body)) : AfterKeyword body := by
  obtain ⟨front, kind, gap, h, hne, hgap⟩ := h
  have hquote : q.toChar ∉ kind.keyword ++ gap := by
    rw [List.mem_append, not_or]
    exact ⟨kind.toChar_not_mem_keyword q, unquoted_of_blank hgap q⟩
  rcases List.append_eq_append_iff.1 h with ⟨t, rfl, ht⟩ | ⟨t, rfl, ht⟩
  · cases t with
    | nil =>
      rw [List.nil_append] at ht
      exact absurd (by simp [← ht]) hquote
    | cons c t =>
      exact ⟨t, kind, gap, (List.cons.inj ht).2, hne, hgap⟩
  · exact absurd (by simp [ht]) hquote

/-- Behind a closing quote a specifier starts only where that quote opens one. -/
theorem InSpecifier.afterKeyword {x : List Char} {q : Quote} (h : InSpecifier (x ++ [q.toChar])) :
    AfterKeyword x := by
  obtain ⟨front, r, body, h, hfront, hbody⟩ := h
  rcases List.eq_nil_or_concat body with rfl | ⟨body, c, rfl⟩
  · rwa [(List.append_inj' h rfl).1]
  · rw [List.concat_eq_append, ← List.cons_append, ← List.append_assoc] at h
    obtain rfl := (List.cons.inj (List.append_inj' h rfl).2).1
    have hquote := hbody q.toChar (by simp)
    rw [q.not_isBodyChar] at hquote
    cases hquote

theorem utf8Size_le_of_prefix {s t : List Char} (h : s <+: t) : utf8Size s ≤ utf8Size t := by
  obtain ⟨r, rfl⟩ := h
  simp

namespace Located

variable {token text body u v w : List Char} {l : Located} {q r : Quote}

/-- A specifier stands between two quotes, behind a keyword and blanks. -/
theorem exists_between (h : l ∈ statements token text) :
    ∃ x y, AfterKeyword x ∧ l.bodyStart = utf8Size x + 1 ∧
      text = x ++ l.statement.quote.toChar ::
        (l.statement.body ++ l.statement.quote.toChar :: y) := by
  obtain ⟨u, v, htext, hstart⟩ := exists_text_eq h
  have hlegal := legal_of_mem_statements h
  refine ⟨u ++ (l.statement.kind.keyword ++ l.statement.gap), v,
    ⟨u, _, _, rfl, hlegal.gap_ne_nil, hlegal.gap_blank⟩, ?_, ?_⟩
  · rw [bodyStart, hstart, Import.opening]
    simp only [utf8Size_append, utf8Size, Quote.utf8Size_toChar]
    omega
  · rw [htext, Import.text_eq]
    simp

theorem bodyStop_le_of_front {x : List Char} (hstart : l.bodyStart = utf8Size x + 1)
    (h : x ++ l.statement.quote.toChar :: l.statement.body <+: u) : l.bodyStop ≤ utf8Size u := by
  have hle := utf8Size_le_of_prefix h
  rw [utf8Size_append, utf8Size, Quote.utf8Size_toChar] at hle
  rw [bodyStop, hstart]
  omega

/-- A quoted text is a specifier, or the specifier lies before or after it. -/
theorem same_or_apart (h : l ∈ statements token text) (hbody : Unquoted body)
    (htext : text = u ++ (q.toChar :: (body ++ [r.toChar]) ++ v)) :
    (AfterKeyword u ∧ q = r ∧ body = l.statement.body) ∨ l.bodyStop ≤ utf8Size u ∨
      utf8Size u + utf8Size (q.toChar :: (body ++ [r.toChar])) ≤ l.bodyStart := by
  obtain ⟨x, y, hx, hstart, htext'⟩ := exists_between h
  have hlegal := legal_of_mem_statements h
  have hboth : x ++ l.statement.quote.toChar ::
      (l.statement.body ++ l.statement.quote.toChar :: y) =
        u ++ q.toChar :: (body ++ r.toChar :: v) := by
    rw [← htext', htext]
    simp
  rcases between_quotes hlegal.quote_not_mem_body hbody hboth with
    ⟨rfl, hq, hB, hr⟩ | hbefore | hafter
  · exact Or.inl ⟨hx, hq.symm.trans hr, hB.symm⟩
  · exact Or.inr (Or.inl (bodyStop_le_of_front hstart hbefore))
  · have hle := utf8Size_le_of_prefix hafter
    simp only [utf8Size_append, utf8Size, Quote.utf8Size_toChar] at hle ⊢
    omega

/-- A text without quotes is not reached from a specifier, unless it stands in one. -/
theorem apart_of_unquoted (h : l ∈ statements token text) (hw : Unquoted w)
    (hu : ¬InSpecifier u) (htext : text = u ++ (w ++ v)) :
    l.bodyStop ≤ utf8Size u ∨ utf8Size u + utf8Size w ≤ l.bodyStart := by
  obtain ⟨x, y, hx, hstart, htext'⟩ := exists_between h
  have hlegal := legal_of_mem_statements h
  rcases hw.before_or_after_or_inside (htext'.symm.trans htext) with
    hbefore | hafter | ⟨z, z', rfl, hbody⟩
  · exact Or.inl (bodyStop_le_of_front hstart hbefore)
  · have hle := utf8Size_le_of_prefix hafter
    rw [utf8Size_append] at hle
    omega
  · refine absurd ⟨x, l.statement.quote, z, rfl, hx, ?_⟩ hu
    intro c hc
    exact hlegal.body_chars c (by simp [hbody, hc])

theorem bodyStart_lt_bodyStop (h : l ∈ statements token text) : l.bodyStart < l.bodyStop := by
  have hbody := (legal_of_mem_statements h).body_ne_nil
  have hpos : 0 < utf8Size l.statement.body := by
    rw [← length_bytes, List.length_pos_iff]
    exact mt bytes_eq_nil_iff.1 hbody
  rw [bodyStop]
  omega

/-- A quoted text is not reached from a specifier, together with what stands around it, where no
specifier starts before it, at it or behind it. -/
theorem apart_of_around {front back : List Char} (h : l ∈ statements token text)
    (hfront : Unquoted front) (hbody : Unquoted body) (hback : Unquoted back)
    (hbefore : ¬InSpecifier u) (hat : ¬AfterKeyword (u ++ front))
    (hbehind : ¬AfterKeyword (u ++ front ++ q.toChar :: body))
    (htext : text = u ++ (front ++ (q.toChar :: (body ++ [r.toChar]) ++ back) ++ v)) :
    l.bodyStop ≤ utf8Size u ∨ utf8Size u +
      utf8Size (front ++ (q.toChar :: (body ++ [r.toChar]) ++ back)) ≤ l.bodyStart := by
  have hclosed : ¬InSpecifier (u ++ front ++ q.toChar :: body ++ [r.toChar]) :=
    fun hin => hbehind hin.afterKeyword
  have h1 := apart_of_unquoted h hfront hbefore
    (v := q.toChar :: (body ++ [r.toChar]) ++ back ++ v) (by simp [htext])
  have h2 := (same_or_apart h hbody (u := u ++ front) (q := q) (r := r) (v := back ++ v)
    (by simp [htext])).resolve_left fun hsame => hat hsame.1
  have h3 := apart_of_unquoted h hback hclosed (v := v) (by simp [htext])
  have hne := bodyStart_lt_bodyStop h
  simp only [utf8Size_append, utf8Size] at h1 h2 h3 ⊢
  omega

end Located

/-! ## What is spared -/

/-- Stretches of a text that a pass leaves alone, by what stands before them. -/
inductive Spared (token : List Char) (d : Direction) (text u : List Char) : List Char → Prop
  /-- A statement that is in the form to which the pass leads. -/
  | otherForm {l : Located} (hl : l ∈ statements token text) (hstart : l.start = utf8Size u)
    (hform : d.accepts l.statement.form = false) : Spared token d text u l.statement.text
  /-- A quoted text without a form, such as the name of a package. -/
  | bare {q : Quote} {body : List Char} (hbody : Unquoted body)
    (hform : ¬∃ form, Form.Describes token body form) :
    Spared token d text u (q.toChar :: (body ++ [q.toChar]))
  /-- A text between two different quotes. -/
  | mismatched {q r : Quote} {body : List Char} (hbody : Unquoted body) (hquotes : q ≠ r) :
    Spared token d text u (q.toChar :: (body ++ [r.toChar]))
  /-- A text between backquotes, outside of all specifiers. -/
  | template {body : List Char} (hbody : Unquoted body) (hu : ¬InSpecifier u) :
    Spared token d text u ('`' :: (body ++ ['`']))
  /-- A quoted text that does not follow a keyword and blanks. -/
  | elsewhere {q : Quote} {body : List Char} (hbody : Unquoted body) (hu : ¬AfterKeyword u) :
    Spared token d text u (q.toChar :: (body ++ [q.toChar]))
  /-- A call `import(…)` outside of all specifiers.  Its argument may not end like the front of a
  statement, since its closing quote could be taken for an opening one then. -/
  | call {q : Quote} {gap body gap' : List Char} (hgap : ∀ c ∈ gap, isAsciiBlank c = true)
    (hgap' : ∀ c ∈ gap', isAsciiBlank c = true) (hbody : Unquoted body) (hu : ¬InSpecifier u)
    (hlast : ¬AfterKeyword body) :
    Spared token d text u
      ("import(".toList ++ gap ++ (q.toChar :: (body ++ [q.toChar]) ++ (gap' ++ [')'])))

/-- No specifier that a pass acts on reaches into what is spared. -/
theorem Spared.apart {token text u v w : List Char} {d : Direction} {l : Located}
    (h : Spared token d text u w) (htext : text = u ++ (w ++ v)) (hl : l ∈ statements token text)
    (ha : d.accepts l.statement.form = true) :
    l.bodyStop ≤ utf8Size u ∨ utf8Size u + utf8Size w ≤ l.bodyStart := by
  cases h with
  | @otherForm m hm hstart hform =>
    have hne : l ≠ m := by
      rintro rfl
      rw [ha] at hform
      cases hform
    have hsize : m.stop = utf8Size u + utf8Size m.statement.text := by rw [Located.stop, hstart]
    have hl' := l.bodyStop_le_stop
    have hl'' := l.start_le_bodyStart
    rcases Located.apart_of_ne hl hm hne with hbefore | hafter
    · omega
    · omega
  | bare hbody hform =>
    refine (Located.same_or_apart hl hbody htext).resolve_left ?_
    rintro ⟨-, -, rfl⟩
    exact hform ⟨_, Form.ofBody?_eq_some_iff.1 (legal_of_mem_statements hl).form_eq⟩
  | mismatched hbody hquotes =>
    refine (Located.same_or_apart hl hbody htext).resolve_left ?_
    exact fun hsame => hquotes hsame.2.1
  | template hbody hu =>
    refine Located.apart_of_unquoted hl ?_ hu htext
    intro q hq
    have hback : q.toChar ≠ '`' := by cases q <;> decide
    simp [hback, hbody q] at hq
  | elsewhere hbody hu =>
    refine (Located.same_or_apart hl hbody htext).resolve_left ?_
    exact fun hsame => hu hsame.1
  | @call _ gap _ gap' hgap hgap' hbody hu hlast =>
    have hfront : Unquoted ("import(".toList ++ gap) :=
      .append (by intro q; cases q <;> decide) (unquoted_of_blank hgap)
    have hback : Unquoted (gap' ++ [')']) :=
      .append (unquoted_of_blank hgap') (by intro q; cases q <;> decide)
    exact Located.apart_of_around hl hfront hbody hback hu (not_afterKeyword_call u hgap)
      (fun hbehind => hlast hbehind.of_append) htext

/-- All that a pass does to a text, whatever the settings are.  Of the statements that it acts on it
takes those with a different specifier in the other form, and puts this one in the place of the old
one; what it writes is the text with these edits, and what is spared is kept.  It counts the edits,
and the statements that it acts on and for which there is no other form. -/
theorem Settings.pass_edits (s : Settings) (d : Direction) (path : Path) (text : List Char) :
    ∃ edits : List (Located × List Char),
      (edits.map Prod.fst).Sublist (statements s.token text) ∧
      (∀ l body, (l, body) ∈ edits ↔ l ∈ statements s.token text ∧
        d.accepts l.statement.form = true ∧
        s.otherForm? path.directory l.statement = some body ∧ body ≠ l.statement.body) ∧
      Edit.Fit (bytes text).length 0 (edits.map Located.edit) ∧
      bytes (s.pass d path text).content =
        Edit.splice (bytes text) 0 (edits.map Located.edit) ∧
      (s.pass d path text).replaced = edits.length ∧
      (s.pass d path text).unresolved.length = (statementsFor s.token d text).countP
        (fun l => (s.otherForm? path.directory l.statement).isNone) ∧
      ∀ u w v, text = u ++ (w ++ v) → Spared s.token d text u w →
        Edit.Keeps (edits.map Located.edit) (bytes u) (bytes w)
          (bytes (s.pass d path text).content) := by
  have hmem (l : Located) (body : List Char) :
      (l, body) ∈ edited (s.judge d path.directory) (statements s.token text) ↔
        l ∈ statements s.token text ∧ d.accepts l.statement.form = true ∧
          s.otherForm? path.directory l.statement = some body ∧ body ≠ l.statement.body := by
    rw [mem_edited_iff, judge_eq_replaced_iff]
  refine ⟨edited (s.judge d path.directory) (statements s.token text),
    map_fst_edited_sublist _ _, hmem, s.fit_edited_statements d path text,
    s.bytes_content d path text, s.replaced_eq_length d path text,
    s.length_unresolved d path text, ?_⟩
  intro u w v htext hspared
  have hfit := s.fit_edited_statements d path text
  rw [bytes_content]
  nth_rewrite 2 [htext]
  rw [bytes_append, bytes_append]
  refine hfit.keeps ?_ (bytes v)
  intro e he
  obtain ⟨⟨l, body⟩, hl, rfl⟩ := List.mem_map.1 he
  obtain ⟨hl, ha, -⟩ := (hmem l body).1 hl
  rw [length_bytes, length_bytes]
  exact hspared.apart htext hl ha

/-- One specifier is replaced.  The text between backquotes before it and the text between two
different quotes behind it are kept. -/
theorem Settings.pass_edits_between :
    let s : Settings := { projectRoot := .ofString "/p" }
    let path := Path.ofString "/p/a/x.ts"
    let i : Import := ⟨.sideEffect, [' '], .single, "./b".toList, .relativeSame ['b']⟩
    let u := "from ".toList
    let w := "`./c`".toList
    let u' := u ++ (w ++ (';' :: i.text ++ ";from ".toList))
    let w' := "\"./d'".toList
    Spared s.token .toAlias (u' ++ w') u w ∧ Spared s.token .toAlias (u' ++ w') u' w' ∧
      ∃ edits : List (Located × List Char), edits.length = 1 ∧
        Edit.Keeps (edits.map Located.edit) (bytes u) (bytes w)
          (bytes (s.pass .toAlias path (u' ++ w')).content) ∧
        Edit.Keeps (edits.map Located.edit) (bytes u') (bytes w')
          (bytes (s.pass .toAlias path (u' ++ w')).content) := by
  intro s path i u w u' w'
  have hc : Unquoted "./c".toList := by
    intro q
    cases q <;> decide
  have hd : Unquoted "./d".toList := by
    intro q
    cases q <;> decide
  have hu : ¬InSpecifier u := by
    rintro ⟨front, q, body, h, -⟩
    have hmem : q.toChar ∈ u := by simp [h]
    cases q <;> revert hmem <;> decide
  have hquotes : Quote.double ≠ .single := by decide
  have hspared : Spared s.token .toAlias (u' ++ w') u w := .template hc hu
  have hspared' : Spared s.token .toAlias (u' ++ w') u' w' := .mismatched hd hquotes
  have hpieces : Piece.pieces s.token (u' ++ w') =
      (u ++ (w ++ [';'])).map .plain ++ .statement i :: (";from ".toList ++ w').map .plain :=
    Piece.cut_eq_iff.2 ⟨by decide, by decide⟩
  have hone : (s.pass .toAlias path (u' ++ w')).replaced = 1 := by
    rw [pass, hpieces]
    decide
  obtain ⟨edits, -, -, -, -, hlength, -, hkeeps⟩ := s.pass_edits .toAlias path (u' ++ w')
  refine ⟨hspared, hspared', edits, hlength.symm.trans hone, ?_, ?_⟩
  · exact hkeeps u w (';' :: i.text ++ ";from ".toList ++ w') (by simp [u']) hspared
  · exact hkeeps u' w' [] (by simp) hspared'

/-- What stands between backquotes is read like any other text: a statement there gets another
specifier, and a specifier that a template or a call reaches into goes on outside of it.  An argument
that ends like the front of a statement opens a specifier behind the call. -/
theorem Settings.pass_changes_template :
    let s : Settings := { scanRoot := .ofString "/p", projectRoot := .ofString "/p" }
    (s.pass .toAlias (.ofString "/p/a/x.ts")
        "const s = `import \x7b a \x7d from './b';`;".toList).content =
          "const s = `import \x7b a \x7d from '@/a/b';`;".toList ∧
      (s.pass .toRelative (.ofString "/p/`a/x.ts") "import '@/`a/b`/c'".toList).content =
        "import './b`/c'".toList ∧
      (s.pass .toRelative (.ofString "/p/import(/x.ts") "import '@/import('x')".toList).content =
        "import './'x')".toList ∧
      ({ s with token := [')'] }.pass .toRelative (.ofString "/p/x.ts")
        "import(\"a from \")/b\"".toList).content = "import(\"a from \"./b\"".toList := by
  intro s
  have hstatement : Piece.pieces ['@'] "const s = `import \x7b a \x7d from './b';`;".toList =
      "const s = `import \x7b a \x7d ".toList.map .plain ++
        .statement ⟨.named, [' '], .single, "./b".toList, .relativeSame ['b']⟩ ::
          ";`;".toList.map .plain :=
    Piece.cut_eq_iff.2 ⟨by decide, by decide⟩
  have hinside : Piece.pieces ['@'] "import '@/`a/b`/c'".toList =
      [.statement ⟨.sideEffect, [' '], .single, "@/`a/b`/c".toList,
        .aliasRooted "`a/b`/c".toList⟩] :=
    Piece.cut_eq_iff.2 ⟨by decide, by decide⟩
  have hcall : Piece.pieces ['@'] "import '@/import('x')".toList =
      .statement ⟨.sideEffect, [' '], .single, "@/import(".toList,
        .aliasRooted "import(".toList⟩ :: "x')".toList.map .plain :=
    Piece.cut_eq_iff.2 ⟨by decide, by decide⟩
  have hargument : Piece.pieces [')'] "import(\"a from \")/b\"".toList =
      "import(\"a ".toList.map .plain ++
        [.statement ⟨.named, [' '], .double, ")/b".toList, .aliasRooted ['b']⟩] :=
    Piece.cut_eq_iff.2 ⟨by decide, by decide⟩
  refine ⟨?_, ?_, ?_, ?_⟩
  · rw [pass, hstatement]
    decide
  · rw [pass, hinside]
    decide
  · rw [pass, hcall]
    decide
  · rw [pass, hargument]
    decide

end ImportPaths
