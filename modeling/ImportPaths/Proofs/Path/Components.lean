import ImportPaths.Specifier.Subpath
import Mathlib.Data.List.Infix

/-!
# Components of paths

The components of a path are a `lead`, which only the front of the text decides, followed by the
`steps` of its segments.  Steps turn a slash into an append (`steps_append_slash`), and so they say
what the components of a joined path are (`components_join`, `collapse_join`).  A list of names
written with slashes has these names as its steps (`steps_joinSegments`), and a written list of
components has these components again (`components_ofComponents`).
-/

namespace ImportPaths

/-- A text that is one plain segment: it stands for itself in a path. -/
structure IsName (s : Segment) : Prop where
  plain : isPlainSegment s = true
  no_slash : '/' ∉ s

theorem isPlainSegment_iff {s : Segment} :
    isPlainSegment s = true ↔ s ≠ [] ∧ s ≠ ['.'] ∧ s ≠ ['.', '.'] := by
  rw [isPlainSegment, decide_eq_true_iff]

theorem IsName.ne_nil {s : Segment} (h : IsName s) : s ≠ [] := (isPlainSegment_iff.1 h.plain).1

theorem IsName.ofSegment? {s : Segment} (h : IsName s) :
    Component.ofSegment? s = some (.name s) := by
  obtain ⟨h1, h2, h3⟩ := isPlainSegment_iff.1 h.plain
  rw [Component.ofSegment?, if_neg (by simp [h1, h2]), if_neg h3]

theorem Component.segment_of_ofSegment? {s : Segment} {k : Component}
    (h : Component.ofSegment? s = some k) : k.segment = s := by
  unfold Component.ofSegment? at h
  split at h
  · cases h
  · split at h
    · rename_i hup
      cases h
      exact hup.symm
    · cases h
      rfl

/-- Lists of names are the same when their texts are. -/
theorem Component.map_name_inj {ss ts : List Segment} :
    ss.map Component.name = ts.map .name ↔ ss = ts :=
  (List.map_injective_iff.2 fun _ _ => Component.name.inj).eq_iff

namespace Path

/-! ## Lead and steps -/

theorem no_slash_of_mem_splitOn {t : List Char} {s : Segment} (h : s ∈ t.splitOn '/') :
    '/' ∉ s := by
  induction t generalizing s with
  | nil =>
    rw [List.splitOn_nil, List.mem_singleton] at h
    rw [h]
    exact List.not_mem_nil
  | cons c t ih =>
    rw [List.splitOn_cons_eq_if_modifyHead] at h
    split at h
    · rcases List.mem_cons.1 h with rfl | h
      · exact List.not_mem_nil
      · exact ih h
    · rename_i hc
      obtain ⟨u, us, hu⟩ := List.exists_cons_of_ne_nil (List.splitOn_ne_nil '/' t)
      rw [hu, List.modifyHead_cons] at h
      rcases List.mem_cons.1 h with rfl | h
      · intro hs
        rcases List.mem_cons.1 hs with rfl | hs
        · exact hc (beq_self_eq_true _)
        · exact ih (hu ▸ List.mem_cons_self) hs
      · exact ih (hu ▸ List.mem_cons_of_mem _ h)

/-- The components that the segments of a text stand for. -/
def steps (t : List Char) : List Component := (t.splitOn '/').filterMap Component.ofSegment?

/-- The component that only the front of a text can have: the root, or a `.`. -/
def lead (t : List Char) : List Component :=
  if t.head? = some '/' then [.root]
  else if (t.splitOn '/').head? = some ['.'] then [.here]
  else []

theorem components_eq (p : Path) : p.components = lead p.chars ++ steps p.chars := by
  obtain ⟨t⟩ := p
  unfold components layout lead steps
  split
  · rename_i rest ht
    change t = _ at ht
    subst ht
    dsimp only
    rw [List.head?_cons, if_pos rfl, List.splitOn_cons_eq_if_modifyHead,
      if_pos (beq_self_eq_true _)]
    rfl
  · rename_i text hslash
    change ∀ rest, t = '/' :: rest → False at hslash
    have hhead : t.head? ≠ some '/' := by
      intro h
      obtain ⟨rest, hrest⟩ := List.head?_eq_some_iff.1 h
      exact hslash rest hrest
    rw [if_neg hhead]
    dsimp only
    split
    · rename_i rest hs
      rw [hs]
      rfl
    · rename_i segments hdot
      rw [if_neg]
      · rfl
      · intro h
        obtain ⟨rest, hrest⟩ := List.head?_eq_some_iff.1 h
        exact hdot rest hrest

@[simp] theorem steps_nil : steps [] = [] := rfl

/-- A slash separates the steps before it from those after it. -/
theorem steps_append_slash (t u : List Char) : steps (t ++ '/' :: u) = steps t ++ steps u := by
  rw [steps, List.splitOn_append_cons_self, List.filterMap_append]
  rfl

/-- A component that a segment stands for: a `..` or a name. -/
def IsStep (c : Component) : Prop := c = .up ∨ ∃ s, c = .name s ∧ IsName s

theorem isStep_name {s : Segment} : IsStep (.name s) ↔ IsName s := by
  simp [IsStep]

theorem isStep_of_mem_steps {t : List Char} {c : Component} (h : c ∈ steps t) : IsStep c := by
  obtain ⟨s, hs, hc⟩ := List.mem_filterMap.1 h
  unfold Component.ofSegment? at hc
  split at hc
  · cases hc
  · rename_i h1
    split at hc
    · cases hc
      exact Or.inl rfl
    · rename_i h2
      cases hc
      rw [not_or] at h1
      exact Or.inr ⟨s, rfl, isPlainSegment_iff.2 ⟨h1.1, h1.2, h2⟩, no_slash_of_mem_splitOn hs⟩

theorem IsStep.ofSegment? {c : Component} (h : IsStep c) :
    Component.ofSegment? c.segment = some c := by
  rcases h with rfl | ⟨s, rfl, hs⟩
  · rfl
  · exact hs.ofSegment?

theorem IsStep.no_slash {c : Component} (h : IsStep c) : '/' ∉ c.segment := by
  rcases h with rfl | ⟨s, rfl, hs⟩
  · decide
  · exact hs.no_slash

/-- Steps with slashes between them are taken apart at these slashes. -/
theorem splitOn_joinSegments {cs : List Component} (hne : cs ≠ []) (h : ∀ c ∈ cs, IsStep c) :
    (joinSegments (cs.map Component.segment)).splitOn '/' = cs.map Component.segment := by
  refine List.splitOn_intercalate '/' ?_ (by simpa using hne)
  intro s hs
  obtain ⟨c, hc, rfl⟩ := List.mem_map.1 hs
  exact (h c hc).no_slash

/-- Steps that are written with slashes between them are read again. -/
theorem steps_joinSegments {cs : List Component} (h : ∀ c ∈ cs, IsStep c) :
    steps (joinSegments (cs.map Component.segment)) = cs := by
  by_cases hne : cs = []
  · rw [hne]
    rfl
  · rw [steps, splitOn_joinSegments hne h, List.filterMap_map]
    calc cs.filterMap (Component.ofSegment? ∘ Component.segment)
        = cs.filterMap some := List.filterMap_congr fun c hc => (h c hc).ofSegment?
      _ = cs := List.filterMap_some

theorem steps_joinSegments_names {names : List Segment} (h : ∀ s ∈ names, IsName s) :
    steps (joinSegments names) = names.map .name := by
  have hsteps : ∀ c ∈ names.map Component.name, IsStep c := by
    intro c hc
    obtain ⟨s, hs, rfl⟩ := List.mem_map.1 hc
    exact isStep_name.2 (h s hs)
  have hseg : (names.map Component.name).map Component.segment = names := by
    rw [List.map_map]
    exact List.map_id names
  rw [← steps_joinSegments hsteps, hseg]

/-- A name is its own step. -/
theorem steps_name {s : Segment} (hs : IsName s) : steps s = [.name s] := by
  rw [steps, List.splitOn_eq_singleton hs.no_slash]
  simp [hs.ofSegment?]

theorem isAbsolute_name {s : Segment} (hs : IsName s) : (Path.mk s).isAbsolute = false := by
  rw [isAbsolute, beq_eq_false_iff_ne]
  intro h
  exact hs.no_slash (List.mem_of_mem_head? h)

theorem lead_eq_nil_or (t : List Char) : lead t = [.root] ∨ lead t = [.here] ∨ lead t = [] := by
  unfold lead
  split
  · exact Or.inl rfl
  · split
    · exact Or.inr (Or.inl rfl)
    · exact Or.inr (Or.inr rfl)

theorem lead_of_not_isAbsolute {p : Path} (h : p.isAbsolute = false) :
    lead p.chars = [.here] ∨ lead p.chars = [] := by
  rcases lead_eq_nil_or p.chars with hl | hl
  · rw [isAbsolute, beq_eq_false_iff_ne] at h
    rw [lead, if_neg h] at hl
    split at hl <;> simp at hl
  · exact hl

/-- Names are among the steps. -/
theorem name_mem_components_iff {p : Path} {s : Segment} :
    .name s ∈ p.components ↔ .name s ∈ steps p.chars := by
  rw [components_eq, List.mem_append, or_iff_right]
  rcases lead_eq_nil_or p.chars with hl | hl | hl <;> simp [hl]

/-- What follows a slash does not change the lead of a text. -/
theorem lead_append_slash {t : List Char} (ht : t ≠ []) (u : List Char) :
    lead (t ++ '/' :: u) = lead t := by
  have hsplit : ((t ++ '/' :: u).splitOn '/').head? = (t.splitOn '/').head? := by
    rw [List.splitOn_append_cons_self,
      List.head?_append_of_ne_nil _ (List.splitOn_ne_nil '/' t)]
  rw [lead, lead, List.head?_append_of_ne_nil _ ht, hsplit]

/-! ## Joined paths -/

/-- What is joined to a path adds its steps. -/
theorem components_join {p q : Path} (hp : p.chars ≠ []) (hq : q.isAbsolute = false) :
    (p.join q).components = p.components ++ steps q.chars := by
  rw [join, if_neg (by simp [hq, hp])]
  split
  · rename_i hlast
    obtain ⟨t, ht⟩ := List.getLast?_eq_some_iff.1 (eq_of_beq hlast)
    rw [components_eq, components_eq, ht]
    by_cases htn : t = []
    · subst htn
      rw [List.nil_append, List.cons_append, List.nil_append, ← List.nil_append ('/' :: q.chars),
        steps_append_slash, ← List.nil_append ['/'], steps_append_slash]
      rfl
    · rw [List.append_assoc, List.cons_append, List.nil_append, lead_append_slash htn,
        lead_append_slash htn, steps_append_slash, steps_append_slash, steps_nil, List.append_nil,
        List.append_assoc]
  · rw [components_eq, components_eq, lead_append_slash hp, steps_append_slash, List.append_assoc]

theorem collapse_here_cons (cs : List Component) : collapse (.here :: cs) = collapse cs := rfl

/-- After `.` and `..` are resolved it makes no difference whether the left path is empty. -/
theorem collapse_join {p q : Path} (hq : q.isAbsolute = false) :
    collapse (p.join q).components = collapse (p.components ++ steps q.chars) := by
  by_cases hp : p.chars = []
  · have hjoin : p.join q = q := by rw [join, if_pos (by simp [hp])]
    have hcomp : p.components = [] := by rw [components_eq, hp]; rfl
    rw [hjoin, hcomp, List.nil_append, components_eq]
    rcases lead_of_not_isAbsolute hq with hl | hl
    · rw [hl, List.singleton_append, collapse_here_cons]
    · rw [hl, List.nil_append]
  · rw [components_join hp hq]

/-! ## Written components -/

theorem head?_splitOn_of_head? {t : List Char} (h : t.head? = some '/') :
    (t.splitOn '/').head? = some [] := by
  obtain ⟨rest, rfl⟩ := List.head?_eq_some_iff.1 h
  rw [List.splitOn_cons_eq_if_modifyHead, if_pos (beq_self_eq_true _), List.head?_cons]

/-- A text that starts with a step has no lead. -/
theorem lead_joinSegments {c : Component} {cs : List Component} (h : ∀ k ∈ c :: cs, IsStep k) :
    lead (joinSegments ((c :: cs).map Component.segment)) = [] := by
  have hsplit : ((joinSegments ((c :: cs).map Component.segment)).splitOn '/').head? =
      some c.segment := by
    rw [splitOn_joinSegments (List.cons_ne_nil c cs) h, List.map_cons, List.head?_cons]
  have hread := (h c List.mem_cons_self).ofSegment?
  have hnil : c.segment ≠ [] := by
    intro hc
    rw [hc] at hread
    cases hread
  have hdot : c.segment ≠ ['.'] := by
    intro hc
    rw [hc] at hread
    cases hread
  rw [lead, if_neg, if_neg]
  · rw [hsplit, Option.some.injEq]
    exact hdot
  · intro hhead
    rw [head?_splitOn_of_head? hhead, Option.some.injEq] at hsplit
    exact hnil hsplit.symm

/-- Components that are written are read again: steps, -/
theorem components_ofComponents {c : Component} {cs : List Component}
    (h : ∀ k ∈ c :: cs, IsStep k) : (ofComponents (c :: cs)).components = c :: cs := by
  have hof : ofComponents (c :: cs) = ⟨joinSegments ((c :: cs).map Component.segment)⟩ := by
    rcases h c List.mem_cons_self with rfl | ⟨s, rfl, -⟩ <;> rfl
  rw [hof, components_eq, lead_joinSegments h, steps_joinSegments h, List.nil_append]

/-- and steps after the root. -/
theorem components_ofComponents_root {cs : List Component} (h : ∀ k ∈ cs, IsStep k) :
    (ofComponents (.root :: cs)).components = .root :: cs := by
  rw [ofComponents, components_eq, ← List.nil_append ('/' :: _), steps_append_slash,
    steps_joinSegments h]
  rfl

end Path

end ImportPaths
