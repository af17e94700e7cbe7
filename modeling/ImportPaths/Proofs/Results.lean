/-!
# Lists of results

A function that may have no result is applied to everything in a list.  There is a list of results
exactly when everything has one (`mapM_eq_some_iff`), and when only some results count, a list of
them counts exactly when each of them does (`mapM_keep`).  The first result of a list is looked for
in order, but where there is no more than one, every order finds it (`findSome?_eq_of_perm`).
-/

namespace ImportPaths

variable {α β : Type} {f : α → Option β} {as : List α} {bs : List β}

/-! ## All results -/

/-- Everything in a list has a result exactly when the results can be listed. -/
theorem mapM_eq_some_iff : as.mapM f = some bs ↔ as.map f = bs.map some := by
  induction as generalizing bs with
  | nil => cases bs <;> simp
  | cons a as ih =>
    simp only [List.mapM_cons, Option.bind_eq_bind, Option.bind_eq_some_iff, ih, Option.pure_def,
      Option.some.injEq]
    constructor
    · rintro ⟨b, hb, bs, hbs, rfl⟩
      rw [List.map_cons, List.map_cons, hb, hbs]
    · intro h
      cases bs with
      | nil => cases h
      | cons b bs =>
        obtain ⟨hb, hbs⟩ := List.cons.inj h
        exact ⟨b, hb, bs, hbs, rfl⟩

/-- Where each result tells what it is the result of, so does their list. -/
theorem mapM_eq_some_iff_eq_map {g : β → α} (h : ∀ {a b}, f a = some b ↔ a = g b) :
    as.mapM f = some bs ↔ as = bs.map g := by
  rw [mapM_eq_some_iff]
  induction as generalizing bs with
  | nil => cases bs <;> simp
  | cons a as ih =>
    cases bs with
    | nil => simp
    | cons b bs =>
      rw [List.map_cons, List.map_cons, List.map_cons, List.cons.injEq, h, ih, List.cons.injEq]

theorem exists_map_eq (h : ∀ a ∈ as, ∃ b, f a = some b) :
    ∃ bs : List β, as.map f = bs.map some := by
  induction as with
  | nil => exact ⟨[], rfl⟩
  | cons a as ih =>
    obtain ⟨⟨b, hb⟩, has⟩ := List.forall_mem_cons.1 h
    obtain ⟨bs, hbs⟩ := ih has
    exact ⟨b :: bs, by rw [List.map_cons, hb, hbs, List.map_cons]⟩

theorem forall_mem_of_map_eq {P : β → Prop} (h : as.map f = bs.map some) :
    (∀ a ∈ as, ∃ b, f a = some b ∧ P b) ↔ ∀ b ∈ bs, P b := by
  rw [← List.forall_mem_map (P := fun r => ∃ b, r = some b ∧ P b), h, List.forall_mem_map]
  simp

/-! ## Results that count -/

variable {p : α → Prop} {r : Option α}

open Classical in
/-- A result that counts only when it has a property. -/
noncomputable def keep (p : α → Prop) (r : Option α) : Option α := r.filter (p ·)

theorem keep_eq_some_iff {a : α} : keep p r = some a ↔ r = some a ∧ p a := by
  simp [keep, Option.filter_eq_some_iff]

theorem keep_of_forall (h : ∀ a ∈ r, p a) : keep p r = r := by
  refine Option.ext fun a => ?_
  rw [keep_eq_some_iff, and_iff_left_iff_imp]
  exact h a

theorem keep_eq_none (h : ∀ a ∈ r, ¬p a) : keep p r = none := by
  refine Option.eq_none_iff_forall_ne_some.2 ?_
  intro a ha
  obtain ⟨hr, hp⟩ := keep_eq_some_iff.1 ha
  exact h a hr hp

/-- The results of a list count together exactly when each of them counts. -/
theorem mapM_keep (f : β → Option α) (bs : List β) :
    bs.mapM (fun b => keep p (f b)) = keep (∀ a ∈ ·, p a) (bs.mapM f) := by
  refine Option.ext fun as => ?_
  rw [keep_eq_some_iff, mapM_eq_some_iff, mapM_eq_some_iff]
  induction bs generalizing as with
  | nil => cases as <;> simp
  | cons b bs ih =>
    cases as with
    | nil => simp
    | cons a as =>
      simp only [List.map_cons, List.cons.injEq, List.forall_mem_cons, keep_eq_some_iff, ih]
      exact and_and_and_comm

theorem keep_map {p : β → Prop} {f : α → β} :
    keep p (r.map f) = (keep (fun a => p (f a)) r).map f := by
  refine Option.ext fun b => ?_
  simp only [keep_eq_some_iff, Option.map_eq_some_iff]
  constructor
  · rintro ⟨⟨a, ha, rfl⟩, hp⟩
    exact ⟨a, ⟨ha, hp⟩, rfl⟩
  · rintro ⟨a, ⟨ha, hp⟩, rfl⟩
    exact ⟨⟨a, ha, rfl⟩, hp⟩

/-! ## The first result -/

/-- No more than one result is found in any order. -/
theorem findSome?_eq_of_perm {as' : List α} (h : as'.Perm as)
    (hone : as.countP (fun a => (f a).isSome) ≤ 1) : as'.findSome? f = as.findSome? f := by
  have hresults : (as'.filterMap f).Perm (as.filterMap f) := h.filterMap f
  rw [← List.length_filterMap_eq_countP] at hone
  rw [← List.head?_filterMap, ← List.head?_filterMap]
  match hlist : as.filterMap f, hone with
  | [], _ =>
    rw [hlist, List.perm_nil] at hresults
    rw [hresults]
  | [b], _ =>
    rw [hlist, List.perm_singleton] at hresults
    rw [hresults]

end ImportPaths
