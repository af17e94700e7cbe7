import ImportPaths.Proofs.Path.Directory

/-!
# Paths that can stand between quotes

A path is quotable when no component holds a quote or a line break; as the rest of its text is
slashes and dots, that is a condition on all its characters (`isQuotable_iff`).  The directory of a
path and the clean path inherit it.
-/

namespace ImportPaths.Path

/-- No component holds a quote or a line break. -/
def IsQuotable (p : Path) : Prop :=
  ∀ k ∈ p.components, ∀ c ∈ k.segment, isBodyChar c = true

instance (p : Path) : Decidable p.IsQuotable :=
  decidable_of_iff (p.components.all fun k => k.segment.all isBodyChar)
    (by simp only [IsQuotable, List.all_eq_true])

theorem mem_joinSegments {segments : List Segment} {c : Char} (h : c ∈ joinSegments segments) :
    c = '/' ∨ ∃ s ∈ segments, c ∈ s := by
  induction segments with
  | nil => cases h
  | cons s segments ih =>
    by_cases hne : segments = []
    · subst hne
      rw [joinSegments, List.intercalate_singleton] at h
      exact Or.inr ⟨s, List.mem_cons_self, h⟩
    · rw [joinSegments, List.intercalate_cons_of_ne_nil hne, List.append_assoc] at h
      rcases List.mem_append.1 h with h | h
      · exact Or.inr ⟨s, List.mem_cons_self, h⟩
      · rcases List.mem_cons.1 h with h | h
        · exact Or.inl h
        · rcases ih h with h | ⟨t, ht, hc⟩
          · exact Or.inl h
          · exact Or.inr ⟨t, List.mem_cons_of_mem _ ht, hc⟩

theorem mem_joinSegments_of_mem {segments : List Segment} {s : Segment} {c : Char}
    (hs : s ∈ segments) (hc : c ∈ s) : c ∈ joinSegments segments := by
  induction segments with
  | nil => cases hs
  | cons t segments ih =>
    by_cases hne : segments = []
    · subst hne
      rw [List.mem_singleton.1 hs] at hc
      rw [joinSegments, List.intercalate_singleton]
      exact hc
    · rw [joinSegments, List.intercalate_cons_of_ne_nil hne, List.append_assoc]
      rcases List.mem_cons.1 hs with rfl | hs
      · exact List.mem_append_left _ hc
      · exact List.mem_append_right _ (List.mem_cons_of_mem _ (ih hs))

theorem mem_of_mem_splitOn {t : List Char} {s : Segment} {c : Char} (hs : s ∈ t.splitOn '/')
    (hc : c ∈ s) : c ∈ t := by
  have h := mem_joinSegments_of_mem hs hc
  rwa [joinSegments, List.intercalate_splitOn] at h

/-- The characters of a path are slashes, dots and those of its components. -/
theorem mem_chars {p : Path} {c : Char} (h : c ∈ p.chars) :
    c = '/' ∨ c = '.' ∨ ∃ k ∈ p.components, c ∈ k.segment := by
  have hjoin : joinSegments (p.chars.splitOn '/') = p.chars := List.intercalate_splitOn '/'
  rw [← hjoin] at h
  rcases mem_joinSegments h with h | ⟨s, hs, hc⟩
  · exact Or.inl h
  · right
    cases hk : Component.ofSegment? s with
    | some k =>
      right
      refine ⟨k, ?_, (Component.segment_of_ofSegment? hk).symm ▸ hc⟩
      rw [components_eq]
      exact List.mem_append_right _ (List.mem_filterMap.2 ⟨s, hs, hk⟩)
    | none =>
      left
      unfold Component.ofSegment? at hk
      split at hk
      · rename_i hidle
        rcases hidle with rfl | rfl
        · cases hc
        · exact List.mem_singleton.1 hc
      · split at hk <;> cases hk

theorem mem_chars_of_mem_name {p : Path} {s : Segment} {c : Char} (hs : .name s ∈ p.components)
    (hc : c ∈ s) : c ∈ p.chars := by
  obtain ⟨t, ht, hof⟩ := List.mem_filterMap.1 (name_mem_components_iff.1 hs)
  have hst : s = t := Component.segment_of_ofSegment? hof
  exact mem_of_mem_splitOn ht (hst ▸ hc)

/-- Only names can hold a character that does not belong between quotes. -/
theorem isQuotable_iff_names {p : Path} :
    p.IsQuotable ↔ ∀ s, .name s ∈ p.components → ∀ c ∈ s, isBodyChar c = true := by
  constructor
  · intro h s hs
    exact h (.name s) hs
  · intro h k hk c hc
    cases k with
    | root => cases hc
    | here =>
      rw [List.mem_singleton.1 hc]
      decide
    | up =>
      have hdot : c = '.' := by simpa [Component.segment] using hc
      rw [hdot]
      decide
    | name s => exact h s hk c hc

theorem isQuotable_iff {p : Path} : p.IsQuotable ↔ ∀ c ∈ p.chars, isBodyChar c = true := by
  constructor
  · intro h c hc
    rcases mem_chars hc with rfl | rfl | ⟨k, hk, hc⟩
    · decide
    · decide
    · exact h k hk c hc
  · intro h
    exact isQuotable_iff_names.2 fun s hs c hc => h c (mem_chars_of_mem_name hs hc)

/-! ## What inherits it -/

theorem IsQuotable.clean {p : Path} (h : p.IsQuotable) : p.clean.IsQuotable :=
  isQuotable_iff_names.2 fun s hs => isQuotable_iff_names.1 h s (name_mem_of_mem_clean hs)

theorem mem_layout_body {p : Path} {s : Segment} (h : s ∈ p.layout.body) :
    s ∈ p.chars.splitOn '/' := by
  obtain ⟨t⟩ := p
  unfold layout at h
  split at h
  · rename_i rest ht
    change t = _ at ht
    subst ht
    rw [List.splitOn_cons_eq_if_modifyHead, if_pos (beq_self_eq_true _)]
    exact List.mem_cons_of_mem _ h
  · split at h
    · rename_i rest hs
      rw [hs]
      exact List.mem_cons_of_mem _ h
    · exact h

/-- A directory is written with the characters of the path, slashes and dots. -/
theorem mem_directory {p : Path} {c : Char} (h : c ∈ p.directory.chars) :
    c ∈ p.chars ∨ c = '/' ∨ c = '.' := by
  unfold directory parent? at h
  dsimp only at h
  split at h
  · rename_i last rest hrev
    have hbody : ∀ s ∈ trimIdle rest.reverse, s ∈ p.chars.splitOn '/' := by
      intro s hs
      refine mem_layout_body (mem_trimIdle (List.mem_reverse.1 ?_))
      rw [hrev]
      exact List.mem_cons_of_mem _ (List.mem_reverse.1 (mem_trimIdle hs))
    have hjoin : c ∈ joinSegments (trimIdle rest.reverse) → c ∈ p.chars ∨ c = '/' ∨ c = '.' := by
      intro hc
      rcases mem_joinSegments hc with hc | ⟨s, hs, hc⟩
      · exact Or.inr (Or.inl hc)
      · exact Or.inl (mem_of_mem_splitOn (hbody s hs) hc)
    rw [Option.getD_some, Layout.toPath] at h
    dsimp only at h
    split at h
    · rcases List.mem_cons.1 h with h | h
      · exact Or.inr (Or.inl h)
      · exact hjoin h
    · split at h
      · rcases mem_joinSegments h with h | ⟨s, hs, hc⟩
        · exact Or.inr (Or.inl h)
        · rcases List.mem_cons.1 hs with rfl | hs
          · exact Or.inr (Or.inr (List.mem_singleton.1 hc))
          · exact hjoin (mem_joinSegments_of_mem hs hc)
      · exact hjoin h
  · split at h <;> cases h

theorem IsQuotable.directory {p : Path} (h : p.IsQuotable) : p.directory.IsQuotable := by
  rw [isQuotable_iff] at h ⊢
  intro c hc
  rcases mem_directory hc with hc | rfl | rfl
  · exact h c hc
  · decide
  · decide

end ImportPaths.Path
