import ImportPaths.Proofs.Json.Scalars
import ImportPaths.Proofs.Results

/-!
# Lists of items

What a reader makes of a list is what it makes of its items.  `Gives item text r` says that,
whatever comes after `text`, a reader takes `a` off its front when `r` is `some a`, and nothing when
`r` is `none`; blanks around the item are passed over.  Items with commas between them are read
exactly when each of them is (`readList_gives`).
-/

namespace ImportPaths.Json

variable {α ι : Type} {c : Char} {s t gap rest : List Char}

/-! ## Blanks -/

/-- A run of blanks. -/
def IsGap (gap : List Char) : Prop := ∀ c ∈ gap, isGap c = true

theorem isGap_nil : IsGap [] := by simp [IsGap]

theorem skipGap_append (h : IsGap gap) (s : List Char) : skipGap (gap ++ s) = skipGap s :=
  List.dropWhile_append_of_pos h

theorem skipGap_append_cons (h : IsGap gap) (hc : isGap c = false) (s : List Char) :
    skipGap (gap ++ c :: s) = c :: s := by
  rw [skipGap_append h, skipGap, List.dropWhile_cons_of_neg (by simp [hc])]

theorem ends_nil : Ends [] := by simp [Ends]

theorem Ends.gap_append (hr : Ends rest) (h : IsGap gap) : Ends (gap ++ rest) := by
  cases gap with
  | nil => exact hr
  | cons d gap =>
    intro c hc
    cases hc
    exact Or.inl (h d List.mem_cons_self)

theorem ends_comma (s : List Char) : Ends (',' :: s) := by
  intro c hc
  cases hc
  exact Or.inr (Or.inl rfl)

/-- The signs that close a list. -/
def IsClosing (close : Char) : Prop := close = ']' ∨ close = '}'

instance (close : Char) : Decidable (IsClosing close) := inferInstanceAs (Decidable (_ ∨ _))

section Items

variable {item : List Char → Option (α × List Char)} {close : Char}

theorem IsClosing.not_isGap (h : IsClosing close) : isGap close = false := by
  rcases h with rfl | rfl <;> rfl

theorem IsClosing.ne_comma (h : IsClosing close) : ',' ≠ close := by
  rcases h with rfl | rfl <;> decide

theorem IsClosing.ends (h : IsClosing close) (s : List Char) : Ends (close :: s) := by
  intro c hc
  cases hc
  rcases h with rfl | rfl <;> simp

/-! ## Items -/

/-- What a reader makes of a text: it takes an item off the front and leaves what follows, except
perhaps for blanks, or it takes nothing. -/
def Gives (item : List Char → Option (α × List Char)) (text : List Char) (r : Option α) : Prop :=
  ∀ rest, Ends rest → ∃ left, skipGap left = skipGap rest ∧ item (text ++ rest) = r.map (·, left)

theorem gives_of_eq {text : List Char} {r : Option α}
    (h : ∀ rest, Ends rest → item (text ++ rest) = r.map (·, rest)) : Gives item text r :=
  fun rest hrest => ⟨rest, rfl, h rest hrest⟩

/-- A reader that passes over blanks makes of a text with blanks around it what it makes of the
text. -/
theorem Gives.padded {text before after : List Char} {r : Option α} (h : Gives item text r)
    (hskip : ∀ s, item (before ++ s) = item s) (hafter : IsGap after) :
    Gives item (before ++ (text ++ after)) r := by
  intro rest hrest
  obtain ⟨left, hleft, hitem⟩ := h (after ++ rest) (hrest.gap_append hafter)
  rw [skipGap_append hafter] at hleft
  refine ⟨left, hleft, ?_⟩
  rw [List.append_assoc, hskip, List.append_assoc, hitem]

variable {text : ι → List Char} {r : ι → Option α} {i : ι} {is : List ι}

/-- Items with commas between them, up to the closing sign: the reader goes from one to the next
and stops at the first that it cannot read. -/
theorem readItems_gives (hclose : IsClosing close) (hgap : IsGap gap)
    (h : ∀ j ∈ i :: is, Gives item (text j) (r j)) (s : List Char) {bound : Nat}
    (hbound : is.length < bound) :
    readItems item close bound ([','].intercalate ((i :: is).map text) ++ (gap ++ close :: s)) =
      ((i :: is).mapM r).map (·, s) := by
  induction is generalizing i bound with
  | nil =>
    obtain ⟨bound, rfl⟩ := Nat.exists_eq_add_one.2 hbound
    obtain ⟨left, hleft, hitem⟩ := h i List.mem_cons_self _ ((hclose.ends s).gap_append hgap)
    rw [skipGap_append_cons hgap hclose.not_isGap] at hleft
    rw [List.map_singleton, List.intercalate_singleton, readItems, hitem]
    cases hr : r i with
    | none => simp [hr]
    | some a => simp [hr, hleft]
  | cons j is ih =>
    obtain ⟨bound, rfl⟩ := Nat.exists_eq_add_one.2 (Nat.zero_lt_of_lt hbound)
    obtain ⟨hi, hrest⟩ := List.forall_mem_cons.1 h
    obtain ⟨left, hleft, hitem⟩ :=
      hi _ (ends_comma ([','].intercalate ((j :: is).map text) ++ (gap ++ close :: s)))
    have hcomma : skipGap left =
        ',' :: ([','].intercalate ((j :: is).map text) ++ (gap ++ close :: s)) := hleft
    rw [List.map_cons, List.map_cons, List.intercalate_cons_cons, List.append_assoc,
      List.append_assoc, List.singleton_append, ← List.map_cons, readItems, hitem, List.mapM_cons]
    cases r i with
    | none => rfl
    | some a =>
      simp only [Option.map_some, hcomma, if_neg hclose.ne_comma, if_true,
        ih hrest (Nat.lt_of_succ_lt_succ hbound)]
      cases (j :: is).mapM r <;> rfl

theorem length_le_intercalate (texts : List (List Char)) :
    texts.length ≤ ([','].intercalate texts).length + 1 := by
  induction texts with
  | nil => simp
  | cons text texts ih =>
    cases texts with
    | nil => simp
    | cons text' texts =>
      rw [List.intercalate_cons_cons, List.length_append, List.length_append]
      simp at ih ⊢
      omega

/-- Items with commas between them are read up to the sign that closes them, when each of them is.
That no item starts with this sign is what tells an empty list from one with items. -/
theorem readList_gives (hclose : IsClosing close) (hgap : IsGap gap)
    (h : ∀ i ∈ is, Gives item (text i) (r i))
    (hstart : ∀ i ∈ is, ∀ rest t, skipGap (text i ++ rest) ≠ close :: t) (s : List Char) :
    readList item close ([','].intercalate (is.map text) ++ (gap ++ close :: s)) =
      (is.mapM r).map (·, s) := by
  cases is with
  | nil =>
    rw [List.map_nil, List.intercalate_nil, List.nil_append, readList,
      skipGap_append_cons hgap hclose.not_isGap]
    exact if_pos rfl
  | cons i is =>
    have hlength := length_le_intercalate ((i :: is).map text)
    have hbound :
        is.length < ([','].intercalate ((i :: is).map text) ++ (gap ++ close :: s)).length := by
      simp at hlength ⊢
      omega
    have hfirst (t : List Char) :
        skipGap ([','].intercalate ((i :: is).map text) ++ (gap ++ close :: s)) ≠ close :: t := by
      have hopen := hstart i List.mem_cons_self
      cases is with
      | nil =>
        rw [List.map_singleton, List.intercalate_singleton]
        exact hopen _ t
      | cons j is =>
        rw [List.map_cons, List.map_cons, List.intercalate_cons_cons, List.append_assoc,
          List.append_assoc]
        exact hopen _ t
    unfold readList
    split
    · rename_i hnil
      have hmem := List.dropWhile_eq_nil_iff.1 hnil close (by simp)
      rw [hclose.not_isGap] at hmem
      cases hmem
    · rename_i c t hskip
      rw [if_neg, readItems_gives hclose hgap h s hbound]
      rintro rfl
      exact hfirst t hskip

end Items

end ImportPaths.Json
