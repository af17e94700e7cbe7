import ImportPaths.Proofs.Source.Candidates
import ImportPaths.Proofs.Source.Edits
import ImportPaths.Proofs.Text.Slice

/-!
# Slices at statements

Statements are found by their bytes, but a text is cut between characters.  The two go together
because everything next to a cut is ASCII: wherever the bytes of a keyword, blanks and a quoted
specifier stand, whatever its form, the specifier can be cut out (`slice?_of_stands`).  A statement
of a text is such a place, and so is where it starts and where it ends (`Located.slice?_text`,
`Located.slice?_body`).

Hence a pass can be made with slices alone, copying from where the last specifier ended to where the
next one starts: none of them fails, and together they are what the pass writes
(`Settings.splice?_edited`).
-/

namespace ImportPaths

open ImportPaths.Text

variable {token text : List Char}

/-! ## Where the bytes of a statement stand -/

/-- A specifier in quotes after a keyword can be cut out, whether it has a form or not. -/
theorem slice?_of_stands {c : Candidate} (h : c.toBytes <+: (bytes text).drop c.start) :
    slice? (bytes text) c.bodyStart c.bodyStop = some c.body := by
  obtain ⟨front, body, back, htext, hstart, hstop, hbody⟩ := exists_body_of_stands h
  rw [← hbody]
  exact slice?_of_eq htext hstart.symm (by rw [hstop, hstart])

/-! ## Statements -/

namespace Located

variable {l : Located}

/-- From where it starts to where it ends a statement can be cut out, -/
theorem slice?_text (h : l ∈ statements token text) :
    slice? (bytes text) l.start l.stop = some (bytes l.statement.text) := by
  obtain ⟨u, v, htext, hstart⟩ := exists_text_eq h
  exact slice?_of_eq htext hstart.symm rfl

/-- and so can its specifier. -/
theorem slice?_body (h : l ∈ statements token text) :
    slice? (bytes text) l.bodyStart l.bodyStop = some (bytes l.statement.body) := by
  obtain ⟨u, v, htext, hstart⟩ := exists_text_eq h
  have hsplit : text = (u ++ l.statement.opening) ++
      (l.statement.body ++ (l.statement.quote.toChar :: v)) := by
    rw [htext, Import.text]
    simp
  refine slice?_of_eq hsplit ?_ rfl
  rw [utf8Size_append, bodyStart, hstart]

theorem isBoundary_bodyStart (h : l ∈ statements token text) :
    isBoundary (bytes text) l.bodyStart = true :=
  (slice?_eq_some_iff.1 (slice?_body h)).2.1

theorem isBoundary_bodyStop (h : l ∈ statements token text) :
    isBoundary (bytes text) l.bodyStop = true :=
  (slice?_eq_some_iff.1 (slice?_body h)).2.2.1

end Located

/-! ## A pass by slices -/

namespace Settings

variable (s : Settings) (d : Direction) (path : Path) (text : List Char)

/-- A pass edits only statements that it acts on. -/
theorem edited_statementsFor (dir : Path) :
    edited (s.judge d dir) (statementsFor s.token d text) =
      edited (s.judge d dir) (statements s.token text) := by
  rw [edited, statementsFor, List.filterMap_filter, edited]
  refine List.filterMap_congr ?_
  intro l _
  split
  · rfl
  · rename_i haccepts
    rw [judge, if_neg haccepts]
    rfl

theorem splice?_edited :
    Edit.splice? (bytes text) 0 ((edited (s.judge d path.directory)
      (statementsFor s.token d text)).map Located.edit) =
        some (bytes (s.pass d path text).content) := by
  rw [edited_statementsFor, bytes_content]
  refine (s.fit_edited_statements d path text).splice?_eq ?_ ?_
  · exact isBoundary_bytes_iff.2 ⟨[], text, rfl, rfl⟩
  · refine List.forall_mem_map.2 ?_
    rintro ⟨l, body⟩ he
    have hl := (mem_edited_iff.1 he).1
    exact ⟨Located.isBoundary_bodyStart hl, Located.isBoundary_bodyStop hl⟩

/-- Under every token, in every text, each cut is between two characters.  What is looked at for a
specifier can be cut out, also where it turns out to be none.  The four offsets of a statement lie
in the text, from one to another of them stand its specifier and its whole, and the next statement
starts where it ends or later.  And a pass that copies slices from its cursor to the next specifier,
and at last to the end, never fails; what it puts together is a text, the one that the pass
writes. -/
theorem slices_between_characters :
    (∀ c : Candidate, c.toBytes <+: (bytes text).drop c.start →
      slice? (bytes text) c.bodyStart c.bodyStop = some c.body) ∧
    (∀ l ∈ statements s.token text,
      (∀ n ∈ [l.start, l.bodyStart, l.bodyStop, l.stop],
        n ≤ (bytes text).length ∧ isBoundary (bytes text) n = true) ∧
      slice? (bytes text) l.bodyStart l.bodyStop = some (bytes l.statement.body) ∧
      slice? (bytes text) l.start l.stop = some (bytes (l.statement.kind.keyword ++
        (l.statement.gap ++ l.statement.quote.toChar ::
          (l.statement.body ++ [l.statement.quote.toChar])))) ∧
      l.statement.gap ≠ [] ∧ ∀ c ∈ l.statement.gap, isAsciiBlank c = true) ∧
    ((statements s.token text).Pairwise fun l m => l.stop ≤ m.start) ∧
    ∃ content, Edit.splice? (bytes text) 0 ((edited (s.judge d path.directory)
        (statementsFor s.token d text)).map Located.edit) = some content ∧
      content.toByteArray.IsValidUTF8 ∧ content = bytes (s.pass d path text).content := by
  refine ⟨fun c => slice?_of_stands, ?_, Piece.pairwise_locate 0 _, ?_⟩
  · intro l hl
    have hwhole := Located.slice?_text hl
    have hlegal := legal_of_mem_statements hl
    have hbound : ∀ n ∈ [l.start, l.bodyStart, l.bodyStop, l.stop],
        isBoundary (bytes text) n = true := by
      simp only [List.forall_mem_cons, List.not_mem_nil, false_imp_iff, implies_true, and_true]
      obtain ⟨-, hstart, hstop, -⟩ := slice?_eq_some_iff.1 hwhole
      exact ⟨hstart, Located.isBoundary_bodyStart hl, Located.isBoundary_bodyStop hl, hstop⟩
    refine ⟨fun n hn => ⟨le_length_of_isBoundary (hbound n hn), hbound n hn⟩,
      Located.slice?_body hl, ?_, hlegal.gap_ne_nil, hlegal.gap_blank⟩
    rw [hwhole, Import.text_eq]
  · exact ⟨_, s.splice?_edited d path text, ⟨_, (utf8Encode_eq _).symm⟩, rfl⟩

/-- Characters of two bytes before a statement and in its specifier. -/
theorem slices_between_characters_beyond_ascii :
    let s : Settings := { projectRoot := .ofString "/p" }
    let path := Path.ofString "/p/x.ts"
    let i : Import := ⟨.sideEffect, [' '], .single, "./ü".toList, .relativeSame ['ü']⟩
    let text := 'é' :: ' ' :: i.text
    ⟨3, i⟩ ∈ statements s.token text ∧ slice? (bytes text) 11 15 = some (bytes i.body) ∧
      slice? (bytes text) 11 14 = none ∧
      Edit.splice? (bytes text) 0 ((edited (s.judge .toAlias path.directory)
        (statementsFor s.token .toAlias text)).map Located.edit) =
          some (bytes "é import '@/ü'".toList) := by
  intro s path i text
  have hpieces : Piece.pieces s.token text = [.plain 'é', .plain ' ', .statement i] :=
    Piece.cut_eq_iff.2 ⟨rfl, by decide⟩
  have hi : ⟨3, i⟩ ∈ statements s.token text := by
    rw [statements, hpieces]
    decide
  have hcontent : (s.pass .toAlias path text).content = "é import '@/ü'".toList := by
    rw [pass, hpieces]
    decide
  obtain ⟨-, hstatements, -, content, hsplice, -, rfl⟩ :=
    s.slices_between_characters .toAlias path text
  rw [hcontent] at hsplice
  exact ⟨hi, (hstatements _ hi).2.1, by decide, hsplice⟩

end Settings

end ImportPaths
