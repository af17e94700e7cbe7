import ImportPaths.Source.Import
import Mathlib.Data.List.Infix
import Mathlib.Data.List.TakeWhile
import Mathlib.Tactic.MkIffOfInductiveProp

/-!
# Statements that can be read

`Import.Legal` says, apart from any reader, which statements there are: blanks after the keyword, a
body that fits between quotes, and a form.  A statement is read from the front of a text exactly
when it is legal and stands there (`read?_eq_some_iff`); what follows it plays no part.

The main statement is `text_prefix_of_opening`: a statement that starts before another one ends at
the opening quote of the other at the latest.  So whether a statement is found before another one
cannot depend on what the other one's specifier says.
-/

namespace ImportPaths

/-! ## Characters -/

theorem Quote.ofChar?_toChar (q : Quote) : Quote.ofChar? q.toChar = some q := by
  cases q <;> rfl

theorem Quote.not_isAsciiBlank (q : Quote) : Text.isAsciiBlank q.toChar = false := by
  cases q <;> rfl

theorem Quote.not_isBodyChar (q : Quote) : isBodyChar q.toChar = false := by
  cases q <;> rfl

theorem Quote.utf8Size_toChar (q : Quote) : q.toChar.utf8Size = 1 := by
  cases q <;> rfl

/-- No keyword holds a quote. -/
theorem ImportKind.toChar_not_mem_keyword (kind : ImportKind) (q : Quote) :
    q.toChar ∉ kind.keyword := by
  cases kind <;> cases q <;> decide

namespace Import

variable {token rest s : List Char} {i j : Import}

/-! ## Legal statements -/

/-- A statement that a reader can find: blanks after the keyword, a specifier that fits between
quotes, and the form of this specifier. -/
@[mk_iff]
structure Legal (token : List Char) (i : Import) : Prop where
  gap_ne_nil : i.gap ≠ []
  gap_blank : ∀ c ∈ i.gap, Text.isAsciiBlank c = true
  body_ne_nil : i.body ≠ []
  body_chars : ∀ c ∈ i.body, isBodyChar c = true
  form_eq : Form.ofBody? token i.body = some i.form

instance (token : List Char) (i : Import) : Decidable (i.Legal token) :=
  decidable_of_iff (i.gap ≠ [] ∧ i.gap.all Text.isAsciiBlank ∧ i.body ≠ [] ∧
      i.body.all isBodyChar ∧ Form.ofBody? token i.body = some i.form)
    (by simp only [legal_iff, List.all_eq_true])

/-- The text of a statement after its keyword. -/
theorem text_eq (i : Import) :
    i.text = i.kind.keyword ++ (i.gap ++ i.quote.toChar :: (i.body ++ [i.quote.toChar])) := by
  simp only [text, opening, List.append_assoc, List.cons_append, List.nil_append]

theorem Legal.quote_not_mem_gap (h : i.Legal token) (q : Quote) : q.toChar ∉ i.gap := by
  intro hq
  have hblank := h.gap_blank _ hq
  rw [q.not_isAsciiBlank] at hblank
  cases hblank

theorem Legal.quote_not_mem_body (h : i.Legal token) (q : Quote) : q.toChar ∉ i.body := by
  intro hq
  have hbody := h.body_chars _ hq
  rw [q.not_isBodyChar] at hbody
  cases hbody

/-! ## Reading -/

theorem takeWhile_append_cons {α : Type} {p : α → Bool} {u : List α} {c : α}
    (hu : ∀ d ∈ u, p d = true) (hc : p c = false) (t : List α) :
    (u ++ c :: t).takeWhile p = u := by
  rw [List.takeWhile_append_of_pos hu, List.takeWhile_cons_of_neg (by simp [hc]), List.append_nil]

theorem dropWhile_append_cons {α : Type} {p : α → Bool} {u : List α} {c : α}
    (hu : ∀ d ∈ u, p d = true) (hc : p c = false) (t : List α) :
    (u ++ c :: t).dropWhile p = c :: t := by
  rw [List.dropWhile_append_of_pos hu, List.dropWhile_cons_of_neg (by simp [hc])]

theorem legal_of_readAfter? {kind : ImportKind} (h : readAfter? token kind s = some (i, rest)) :
    i.Legal token := by
  unfold readAfter? at h
  split at h
  · split at h
    · split at h
      · rename_i hc
        obtain ⟨form, hf, he⟩ := Option.map_eq_some_iff.1 h
        cases he
        exact ⟨hc.2.1, fun c hm => List.mem_takeWhile_imp hm, hc.2.2,
          fun c hm => List.mem_takeWhile_imp hm, hf⟩
      · cases h
    · cases h
  · cases h

theorem Legal.readAfter? (h : i.Legal token) (rest : List Char) :
    readAfter? token i.kind (i.gap ++ i.quote.toChar :: (i.body ++ i.quote.toChar :: rest)) =
      some (i, rest) := by
  unfold Import.readAfter?
  rw [takeWhile_append_cons h.gap_blank i.quote.not_isAsciiBlank,
    dropWhile_append_cons h.gap_blank i.quote.not_isAsciiBlank]
  dsimp only
  rw [i.quote.ofChar?_toChar, takeWhile_append_cons h.body_chars i.quote.not_isBodyChar,
    dropWhile_append_cons h.body_chars i.quote.not_isBodyChar]
  dsimp only
  rw [if_pos ⟨rfl, h.gap_ne_nil, h.body_ne_nil⟩, h.form_eq]
  rfl

/-- A statement is read exactly when it is legal and stands at the front. -/
theorem read?_eq_some_iff :
    read? token s = some (i, rest) ↔ i.Legal token ∧ s = i.text ++ rest := by
  constructor
  · intro h
    refine ⟨?_, read?_eq_some h⟩
    obtain ⟨kind, -, hk⟩ := List.exists_of_findSome?_eq_some h
    obtain ⟨t, -, hr⟩ := Option.bind_eq_some_iff.1 hk
    exact legal_of_readAfter? hr
  · rintro ⟨h, rfl⟩
    have hread := h.readAfter? rest
    have hkey : i.kind.keyword.isPrefixOf? (i.text ++ rest) =
        some (i.gap ++ i.quote.toChar :: (i.body ++ i.quote.toChar :: rest)) := by
      rw [List.isPrefixOf?_eq_some_iff_append_eq, text_eq]
      simp only [List.append_assoc, List.cons_append, List.nil_append]
    rw [read?, ImportKind.all, List.findSome?_cons]
    cases hk : i.kind with
    | named =>
      rw [hk] at hkey hread
      rw [hkey, Option.bind_some, hread]
    | sideEffect =>
      -- the keywords start with different letters, so the other one is not even tried
      have hother : ImportKind.named.keyword.isPrefixOf? (i.text ++ rest) = none := by
        rw [text_eq, hk]
        rfl
      rw [hk] at hkey hread
      rw [hother, Option.bind_none, List.findSome?_cons, hkey, Option.bind_some, hread]

/-! ## Statements do not reach into the specifier of a later one -/

/-- Keywords end with a letter. -/
theorem exists_reverse_keyword (kind : ImportKind) :
    ∃ c t, kind.keyword.reverse = c :: t ∧ Text.isAsciiBlank c = false := by
  cases kind
  · exact ⟨_, _, rfl, rfl⟩
  · exact ⟨_, _, rfl, rfl⟩

/-- No keyword ends with another one. -/
theorem eq_nil_of_append_keyword {x : List Char} {k k' : ImportKind}
    (h : x ++ k.keyword = k'.keyword) : x = [] := by
  have hlength := congrArg List.length h
  have hlast := congrArg List.getLast? h
  cases k <;> cases k' <;> simp [ImportKind.keyword] at hlength hlast <;> exact hlength

/-- The blanks before a quote tell where the keyword ends. -/
theorem append_keyword_inj {x gap gap' : List Char} {k k' : ImportKind}
    (hgap : ∀ c ∈ gap, Text.isAsciiBlank c = true) (hgap' : ∀ c ∈ gap', Text.isAsciiBlank c = true)
    (h : x ++ (k.keyword ++ gap) = k'.keyword ++ gap') : x ++ k.keyword = k'.keyword := by
  obtain ⟨c, t, hk, hc⟩ := exists_reverse_keyword k
  obtain ⟨c', t', hk', hc'⟩ := exists_reverse_keyword k'
  have hrev : gap.reverse ++ c :: (t ++ x.reverse) = gap'.reverse ++ c' :: t' := by
    rw [← hk', ← List.reverse_append, ← h, List.reverse_append, List.reverse_append, hk,
      List.append_assoc, List.cons_append]
  have hdrop := congrArg (List.dropWhile Text.isAsciiBlank) hrev
  rw [dropWhile_append_cons (by simpa using hgap) hc,
    dropWhile_append_cons (by simpa using hgap') hc', ← hk', ← List.cons_append, ← hk,
    ← List.reverse_append] at hdrop
  exact List.reverse_inj.1 hdrop

/-- A statement that starts before another one ends at the opening quote of the other at the
latest. -/
theorem Legal.text_prefix_of_opening {x u : List Char} (hi : i.Legal token) (hj : j.Legal token)
    (hx : x ≠ []) (h : j.text ++ rest = x ++ (i.opening ++ u)) : j.text <+: x ++ i.opening := by
  have hcommon : x ++ i.opening <+: j.text ++ rest := by
    rw [h, ← List.append_assoc]
    exact List.prefix_append _ _
  rcases List.prefix_or_prefix_of_prefix (List.prefix_append j.text rest) hcommon with hj' | hj'
  · exact hj'
  · obtain ⟨v, hv⟩ := hj'
    rcases List.eq_nil_or_concat v with rfl | ⟨v, c, rfl⟩
    · rw [List.append_nil] at hv
      rw [hv]
    · -- the opening quote of `i` would be the only quote before the closing one of `j`
      exfalso
      have hclose : (x ++ (i.kind.keyword ++ i.gap) ++ i.quote.toChar :: v) ++ [c] =
          (j.kind.keyword ++ j.gap ++ j.quote.toChar :: j.body) ++ [j.quote.toChar] := by
        simpa [text_eq, opening] using hv
      have hopen := List.append_inj_left' hclose rfl
      have hnot : i.quote.toChar ∉ j.kind.keyword ++ j.gap := by
        intro hq
        rcases List.mem_append.1 hq with hq | hq
        · exact j.kind.toChar_not_mem_keyword _ hq
        · exact hj.quote_not_mem_gap _ hq
      have heq := (List.append_cons_inj_of_notMem hnot (hj.quote_not_mem_body _)).1 hopen.symm
      exact hx (eq_nil_of_append_keyword (append_keyword_inj hi.gap_blank hj.gap_blank heq.1.symm))

end Import

end ImportPaths
