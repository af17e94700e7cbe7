import ImportPaths.Proofs.Path.Absolute
import ImportPaths.Source.Pass
import Mathlib.Data.List.TakeWhile

/-!
# The directory of a file

The directory of a path is the path without its last segment and without what is no component
behind it.  Idle segments at the end of a text make no component (`filterMap_trimIdle`), so an
absolute path and its directory differ by one component (`components_directory`), and what lies
below an absolute path lies in an absolute directory.
-/

namespace ImportPaths.Path

variable {p : Path}

/-! ## Idle segments -/

theorem isIdle_iff {s : Segment} : isIdle s = true ↔ Component.ofSegment? s = none := by
  rw [isIdle, decide_eq_true_iff, Component.ofSegment?]
  by_cases hidle : s = [] ∨ s = ['.']
  · simp [hidle]
  · rw [if_neg hidle]
    split <;> simp [hidle]

theorem mem_trimIdle {body : List Segment} {s : Segment} (h : s ∈ trimIdle body) : s ∈ body :=
  List.mem_reverse.1 ((List.dropWhile_sublist _).subset (List.mem_reverse.1 h))

/-- Idle segments may be left out at the end. -/
theorem filterMap_trimIdle (body : List Segment) :
    (trimIdle body).filterMap Component.ofSegment? = body.filterMap Component.ofSegment? := by
  have hidle : (body.reverse.takeWhile isIdle).filterMap Component.ofSegment? = [] :=
    List.filterMap_eq_nil_iff.2 fun s hs => isIdle_iff.1 (List.mem_takeWhile_imp hs)
  have hall := congrArg (List.filterMap Component.ofSegment?)
    (List.takeWhile_append_dropWhile (p := isIdle) (l := body.reverse))
  rw [List.filterMap_append, hidle, List.nil_append] at hall
  rw [trimIdle, List.filterMap_reverse, hall, List.filterMap_reverse, List.reverse_reverse]

/-- What is left ends with a segment that stands for a component. -/
theorem exists_ofSegment?_of_trimIdle {body front : List Segment} {last : Segment}
    (h : trimIdle body = front ++ [last]) : ∃ c, Component.ofSegment? last = some c := by
  have hdrop : body.reverse.dropWhile isIdle = last :: front.reverse := by
    rw [← List.reverse_reverse (body.reverse.dropWhile isIdle), ← trimIdle, h,
      List.reverse_concat]
  have hlast := List.head?_dropWhile_not isIdle body.reverse
  rw [hdrop] at hlast
  rw [← Option.isSome_iff_exists, Option.isSome_iff_ne_none, ne_eq, ← isIdle_iff]
  simpa using hlast

/-- Segments that are written with slashes between them are taken apart at these slashes. -/
theorem steps_joinSegments_of_no_slash {body : List Segment} (h : ∀ s ∈ body, '/' ∉ s) :
    steps (joinSegments body) = body.filterMap Component.ofSegment? := by
  by_cases hne : body = []
  · rw [hne]
    rfl
  · rw [steps, joinSegments, List.splitOn_intercalate '/' h hne]

/-! ## Absolute paths -/

theorem exists_layout_of_isAbsolute (h : p.isAbsolute = true) :
    ∃ rest : List Char, p.layout = ⟨true, false, rest.splitOn '/'⟩ := by
  obtain ⟨t⟩ := p
  obtain ⟨rest, rfl⟩ : ∃ rest, t = '/' :: rest := List.head?_eq_some_iff.1 (eq_of_beq h)
  exact ⟨rest, rfl⟩

/-- The directory of an absolute path lacks its last component. -/
theorem components_directory (h : p.isAbsolute = true) (hne : p.components ≠ [.root]) :
    p.directory.components = p.components.dropLast := by
  obtain ⟨rest, hlayout⟩ := exists_layout_of_isAbsolute h
  have hcomponents : p.components =
      .root :: (trimIdle (rest.splitOn '/')).filterMap Component.ofSegment? := by
    rw [components, hlayout, filterMap_trimIdle]
    rfl
  rcases List.eq_nil_or_concat (trimIdle (rest.splitOn '/')) with hbody | ⟨front, last, hbody⟩
  · rw [hbody] at hcomponents
    exact absurd hcomponents hne
  · rw [List.concat_eq_append] at hbody
    obtain ⟨c, hc⟩ := exists_ofSegment?_of_trimIdle hbody
    have hparent : p.directory = ⟨'/' :: joinSegments (trimIdle front)⟩ := by
      rw [directory, parent?, hlayout]
      dsimp only
      rw [hbody, List.reverse_concat]
      dsimp only
      rw [List.reverse_reverse]
      rfl
    have hslash : ∀ s ∈ trimIdle front, '/' ∉ s := by
      intro s hs
      have hmem : s ∈ trimIdle (rest.splitOn '/') := hbody ▸ List.mem_append_left _ (mem_trimIdle hs)
      exact no_slash_of_mem_splitOn (mem_trimIdle hmem)
    rw [hcomponents, hbody, List.filterMap_append, List.filterMap_cons_some hc, List.filterMap_nil,
      ← List.cons_append, List.dropLast_concat, hparent, components_eq, ← List.nil_append ('/' :: _),
      steps_append_slash, steps_joinSegments_of_no_slash hslash, filterMap_trimIdle]
    rfl

/-- What lies below an absolute path lies in a directory that starts with it. -/
theorem components_directory_of_append {base : Path} {below : List Component}
    (hbase : base.isAbsolute = true) (hne : below ≠ [])
    (h : p.components = base.components ++ below) :
    p.directory.components = base.components ++ below.dropLast := by
  have hroot : .root ∈ base.components := isAbsolute_iff.1 hbase
  have hp : p.isAbsolute = true := by
    rw [isAbsolute_iff, h]
    exact List.mem_append_left _ hroot
  rw [components_directory hp, h, List.dropLast_append_of_ne_nil hne]
  intro heq
  have hlength := congrArg List.length (h.symm.trans heq)
  have hpos := List.length_pos_of_mem hroot
  have hpos' := List.length_pos_iff.2 hne
  simp only [List.length_append, List.length_singleton] at hlength
  omega

theorem IsBelow.isAbsolute_directory {base : Path} (hbase : base.isAbsolute = true)
    (h : p.IsBelow base) : p.directory.isAbsolute = true := by
  obtain ⟨⟨below, hbelow⟩, hne⟩ := h
  have hdirectory := components_directory_of_append hbase (by rintro rfl; simp [← hbelow] at hne)
    hbelow.symm
  rw [isAbsolute_iff, hdirectory]
  exact List.mem_append_left _ (isAbsolute_iff.1 hbase)

end ImportPaths.Path
