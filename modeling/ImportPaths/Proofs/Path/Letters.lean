import ImportPaths.Proofs.Path.Clean
import ImportPaths.Proofs.Text.Letters

/-!
# Paths of texts, in letters

The view of a path asks its characters only whether they are slashes or dots, and these are letters
themselves.  So the components of a text in letters are its components with their names in letters
(`components_letters`), and resolving `.` and `..` makes no difference to that
(`collapse_map_inLetters`).  What a relative path names in a directory is the same place, seen in
letters or not (`components_anchor_letters`).
-/

namespace ImportPaths

open ImportPaths.Text

variable {s t : List Char}

theorem Text.letters_eq_dot_iff : letters s = ['.'] ↔ s = ['.'] := letters_inj (t := ['.'])

theorem Text.letters_eq_dots_iff : letters s = ['.', '.'] ↔ s = ['.', '.'] :=
  letters_inj (t := ['.', '.'])

namespace Component

/-- The name with a given text. -/
def ofText (s : List Char) : Component := .name (letters s)

/-- A component with its name in letters. -/
def inLetters : Component → Component
  | .name s => ofText s
  | c => c

theorem inLetters_injective : Function.Injective inLetters := by
  intro c d h
  cases c <;> cases d <;> simp [inLetters, ofText, letters_inj] at h ⊢
  exact h

/-- Only names are names in letters. -/
theorem exists_names_of_map_inLetters {cs : List Component} {names : List Segment}
    (h : cs.map inLetters = names.map .name) :
    ∃ ss : List (List Char), cs = ss.map .name ∧ names = ss.map letters := by
  induction cs generalizing names with
  | nil => exact ⟨[], rfl, by simpa using h⟩
  | cons c cs ih =>
    cases names with
    | nil => cases h
    | cons n names =>
      obtain ⟨hc, hcs⟩ := List.cons.inj h
      obtain ⟨ss, rfl, rfl⟩ := ih hcs
      cases c with
      | name s => exact ⟨s :: ss, rfl, by rw [List.map_cons, ← Component.name.inj hc]⟩
      | root | here | up => cases hc

theorem ofSegment?_letters (s : List Char) :
    ofSegment? (letters s) = (ofSegment? s).map inLetters := by
  simp only [ofSegment?, letters_eq_nil_iff, letters_eq_dot_iff, letters_eq_dots_iff]
  split
  · rfl
  · split <;> rfl

end Component

namespace Path

open Component

theorem steps_letters (t : List Char) : steps (letters t) = (steps t).map inLetters := by
  rw [steps, splitOn_letters, List.filterMap_map, steps, List.map_filterMap]
  exact List.filterMap_congr fun s _ => ofSegment?_letters s

theorem head?_letters_eq_slash_iff : (letters s).head? = some '/' ↔ s.head? = some '/' := by
  have hfront (t : List Char) : t.head? = some '/' ↔ ['/'] <+: t := by
    cases t <;> simp [eq_comm]
  rw [hfront, hfront]
  exact letters_prefix_iff (s := ['/'])

theorem isAbsolute_letters (s : List Char) :
    (⟨letters s⟩ : Path).isAbsolute = (⟨s⟩ : Path).isAbsolute := by
  rw [Bool.eq_iff_iff, isAbsolute, isAbsolute, beq_iff_eq, beq_iff_eq, head?_letters_eq_slash_iff]

theorem lead_letters (t : List Char) : lead (letters t) = (lead t).map inLetters := by
  have hdot : ((letters t).splitOn '/').head? = some ['.'] ↔
      (t.splitOn '/').head? = some ['.'] := by
    simp [splitOn_letters, letters_eq_dot_iff]
  simp only [lead, head?_letters_eq_slash_iff, hdot]
  split
  · rfl
  · split <;> rfl

/-- The components of a text in letters. -/
theorem components_letters (s : List Char) :
    (⟨letters s⟩ : Path).components = (⟨s⟩ : Path).components.map inLetters := by
  rw [components_eq, components_eq, List.map_append, lead_letters, steps_letters]

theorem pushComponent_inLetters (stack : List Component) (c : Component) :
    pushComponent (stack.map inLetters) c.inLetters = (pushComponent stack c).map inLetters := by
  cases c with
  | up =>
    cases stack with
    | nil => rfl
    | cons d stack => cases d <;> rfl
  | root | here | name s => rfl

theorem collapse_map_inLetters (cs : List Component) :
    collapse (cs.map inLetters) = (collapse cs).map inLetters := by
  have hfold (stack : List Component) : (cs.map inLetters).foldl pushComponent
      (stack.map inLetters) = (cs.foldl pushComponent stack).map inLetters := by
    induction cs generalizing stack with
    | nil => rfl
    | cons c cs ih =>
      rw [List.map_cons, List.foldl_cons, pushComponent_inLetters, ih, List.foldl_cons]
  rw [collapse, collapse, List.map_reverse]
  exact congrArg List.reverse (hfold [])

/-- A path whose resolved components are those of another one in letters has them once it is clean
as well. -/
theorem components_clean_inLetters {p q : Path}
    (h : collapse p.components = (collapse q.components).map inLetters) :
    p.clean.components = q.clean.components.map inLetters := by
  by_cases hq : collapse q.components = []
  · have hp : collapse p.components = [] := by rw [h, hq, List.map_nil]
    have hclean : p.clean = q.clean := clean_congr (hp.trans hq.symm)
    rw [hclean, clean, hq]
    rfl
  · rw [components_clean_of_ne_nil hq, components_clean_of_ne_nil (by simpa [h] using hq), h]

/-- Joining commutes with it, -/
theorem collapse_join_letters (s t : List Char) :
    collapse ((⟨letters s⟩ : Path).join ⟨letters t⟩).components =
      (collapse ((⟨s⟩ : Path).join ⟨t⟩).components).map inLetters := by
  cases ht : (⟨t⟩ : Path).isAbsolute with
  | true =>
    have halone (u v : List Char) (hv : (⟨v⟩ : Path).isAbsolute = true) :
        (⟨u⟩ : Path).join ⟨v⟩ = ⟨v⟩ := by
      rw [join, if_pos (by simp [hv])]
    rw [halone s t ht, halone _ _ ((isAbsolute_letters t).trans ht), components_letters,
      collapse_map_inLetters]
  | false =>
    rw [collapse_join ht, collapse_join ((isAbsolute_letters t).trans ht), components_letters,
      steps_letters, ← List.map_append, collapse_map_inLetters]

/-- and so does cleaning what was joined. -/
theorem components_anchor_letters (s t : List Char) :
    ((⟨letters s⟩ : Path).join ⟨letters t⟩).clean.components =
      ((⟨s⟩ : Path).join ⟨t⟩).clean.components.map inLetters :=
  components_clean_inLetters (collapse_join_letters s t)

theorem components_clean_letters (s : List Char) :
    (⟨letters s⟩ : Path).clean.components = (⟨s⟩ : Path).clean.components.map inLetters := by
  refine components_clean_inLetters ?_
  rw [components_letters, collapse_map_inLetters]

end Path

end ImportPaths
