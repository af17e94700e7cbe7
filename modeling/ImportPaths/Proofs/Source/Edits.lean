import ImportPaths.Proofs.Source.Counts
import ImportPaths.Proofs.Text.Bytes
import ImportPaths.Proofs.Text.Splice
import Mathlib.Data.List.Pairwise

/-!
# A pass as edits of a text

A pass puts the new specifiers in the place of the old ones and copies everything else: the bytes of
what it writes are those of the text with one edit for each specifier that is replaced
(`splice_locate`).  Statements do not overlap, so the edits come one after the other
(`fit_edited`).
-/

namespace ImportPaths

open ImportPaths.Text

/-! ## Where statements stand -/

namespace Piece

variable {ps : List Piece} {start : Nat} {l : Located}

theorem exists_of_mem_locate (h : l ∈ locate start ps) :
    ∃ front back, ps = front ++ .statement l.statement :: back ∧
      l.start = start + utf8Size (render front) := by
  induction ps generalizing start with
  | nil => cases h
  | cons p ps ih =>
    cases p with
    | plain c =>
      obtain ⟨front, back, rfl, hstart⟩ := ih h
      refine ⟨.plain c :: front, back, rfl, ?_⟩
      rw [hstart, render_plain, utf8Size, Nat.add_assoc]
    | statement i =>
      rcases List.mem_cons.1 h with rfl | h
      · exact ⟨[], ps, rfl, rfl⟩
      · obtain ⟨front, back, rfl, hstart⟩ := ih h
        refine ⟨.statement i :: front, back, rfl, ?_⟩
        rw [hstart, render_statement, utf8Size_append, Nat.add_assoc]

theorem pairwise_locate (start : Nat) (ps : List Piece) :
    (locate start ps).Pairwise fun l m => l.stop ≤ m.start := by
  induction ps generalizing start with
  | nil => exact List.Pairwise.nil
  | cons p ps ih =>
    cases p with
    | plain c => exact ih _
    | statement i =>
      refine List.Pairwise.cons ?_ (ih _)
      intro m hm
      obtain ⟨front, _, -, hstart⟩ := exists_of_mem_locate hm
      rw [hstart]
      exact Nat.le_add_right _ _

end Piece

namespace Located

variable {token text : List Char} {l m : Located}

/-- A statement stands in its text, at the byte at which it starts. -/
theorem exists_text_eq (h : l ∈ statements token text) :
    ∃ u v, text = u ++ (l.statement.text ++ v) ∧ l.start = utf8Size u := by
  obtain ⟨front, back, hps, hstart⟩ := Piece.exists_of_mem_locate h
  refine ⟨Piece.render front, Piece.render back, ?_, by rw [hstart, Nat.zero_add]⟩
  rw [← Piece.render_pieces token text, hps]
  simp [Piece.render, Piece.text]

theorem start_le_bodyStart (l : Located) : l.start ≤ l.bodyStart := Nat.le_add_right _ _

theorem bodyStop_le_stop (l : Located) : l.bodyStop ≤ l.stop := by
  simp only [bodyStop, bodyStart, stop, Import.text, utf8Size_append]
  omega

/-- Up to its specifier a statement is its opening. -/
theorem take_bodyStart {pre : List UInt8} (h : l.start = pre.length) (rest : List UInt8) :
    (pre ++ (bytes l.statement.text ++ rest)).take l.bodyStart =
      pre ++ bytes l.statement.opening := by
  have htext : pre ++ (bytes l.statement.text ++ rest) = (pre ++ bytes l.statement.opening) ++
      (bytes (l.statement.body ++ [l.statement.quote.toChar]) ++ rest) := by
    simp [Import.text]
  rw [htext, List.take_left' (by simp [bodyStart, h])]

/-- After its specifier a statement is its closing quote. -/
theorem drop_bodyStop {pre : List UInt8} (h : l.start = pre.length) :
    (pre ++ bytes l.statement.text).drop l.bodyStop = bytes [l.statement.quote.toChar] := by
  have htext : pre ++ bytes l.statement.text =
      (pre ++ bytes (l.statement.opening ++ l.statement.body)) ++
        bytes [l.statement.quote.toChar] := by
    simp [Import.text]
  rw [htext, List.drop_left' (by simp [bodyStop, bodyStart, h, Nat.add_assoc])]

/-- Two statements do not overlap. -/
theorem apart_of_ne (hl : l ∈ statements token text) (hm : m ∈ statements token text)
    (hne : l ≠ m) : l.stop ≤ m.start ∨ m.stop ≤ l.start := by
  have hpairwise : (statements token text).Pairwise
      fun l m => l.stop ≤ m.start ∨ m.stop ≤ l.start := (Piece.pairwise_locate 0 _).imp Or.inl
  have hsymm : Std.Symm fun l m : Located => l.stop ≤ m.start ∨ m.stop ≤ l.start :=
    ⟨fun _ _ => Or.symm⟩
  exact hpairwise.forall hl hm hne

end Located

/-! ## The edits of a pass -/

/-- The new specifier that a verdict gives. -/
def Verdict.body? : Verdict → Option (List Char)
  | .replaced body => some body
  | .kept | .unresolved => none

theorem Verdict.body?_eq_some_iff {v : Verdict} {body : List Char} :
    v.body? = some body ↔ v = .replaced body := by
  cases v <;> simp [body?]

theorem Verdict.apply_statement (judge : Import → Verdict) (i : Import) :
    Verdict.apply judge (.statement i) =
      i.opening ++ ((judge i).body?.getD i.body ++ [i.quote.toChar]) := by
  rw [Verdict.apply]
  cases judge i <;> rfl

/-- The statements that get another specifier, with it. -/
def edited (judge : Import → Verdict) (ls : List Located) : List (Located × List Char) :=
  ls.filterMap fun l => (judge l.statement).body?.map (l, ·)

/-- The bytes of a new specifier in the place of the old one. -/
def Located.edit (e : Located × List Char) : Edit := ⟨e.1.bodyStart, e.1.bodyStop, bytes e.2⟩

section

variable {judge : Import → Verdict} {ls : List Located} {l : Located} {body : List Char}

theorem mem_edited_iff :
    (l, body) ∈ edited judge ls ↔ l ∈ ls ∧ judge l.statement = .replaced body := by
  simp only [edited, List.mem_filterMap, Option.map_eq_some_iff, Prod.mk.injEq,
    Verdict.body?_eq_some_iff]
  constructor
  · rintro ⟨m, hm, _, hjudge, rfl, rfl⟩
    exact ⟨hm, hjudge⟩
  · rintro ⟨hl, hjudge⟩
    exact ⟨l, hl, body, hjudge, rfl, rfl⟩

theorem edited_cons_of_none (h : (judge l.statement).body? = none) :
    edited judge (l :: ls) = edited judge ls := by
  rw [edited, List.filterMap_cons, h]
  rfl

theorem edited_cons_of_some (h : (judge l.statement).body? = some body) :
    edited judge (l :: ls) = (l, body) :: edited judge ls := by
  rw [edited, List.filterMap_cons, h]
  rfl

theorem map_fst_edited_sublist (judge : Import → Verdict) (ls : List Located) :
    ((edited judge ls).map Prod.fst).Sublist ls := by
  induction ls with
  | nil => exact List.Sublist.refl _
  | cons l ls ih =>
    cases h : (judge l.statement).body? with
    | none =>
      rw [edited_cons_of_none h]
      exact ih.cons l
    | some body =>
      rw [edited_cons_of_some h]
      exact ih.cons_cons l

/-- The edits come one after the other. -/
theorem fit_edited (judge : Import → Verdict) (ps : List Piece) {start cursor : Nat}
    (h : cursor ≤ start) :
    Edit.Fit (start + utf8Size (Piece.render ps)) cursor
      ((edited judge (locate start ps)).map Located.edit) := by
  induction ps generalizing start cursor with
  | nil => simpa [locate, edited, Edit.Fit, utf8Size] using h
  | cons p ps ih =>
    cases p with
    | plain c =>
      rw [Piece.render_plain, utf8Size, ← Nat.add_assoc]
      exact ih (by omega)
    | statement i =>
      rw [Piece.render_statement, utf8Size_append, ← Nat.add_assoc, locate]
      cases hbody : (judge i).body? with
      | none =>
        rw [edited_cons_of_none hbody]
        exact ih (by omega)
      | some body =>
        rw [edited_cons_of_some hbody]
        have hstop := Located.bodyStop_le_stop ⟨start, i⟩
        exact ⟨Nat.le_trans h (Nat.le_add_right _ _), Nat.le_add_right _ _, ih hstop⟩

/-- Making the edits from left to right writes the pieces after their verdicts. -/
theorem splice_locate (judge : Import → Verdict) (ps : List Piece) (pre : List UInt8)
    (cursor : Nat) (h : cursor ≤ pre.length) :
    Edit.splice (pre ++ bytes (Piece.render ps)) cursor
        ((edited judge (locate pre.length ps)).map Located.edit) =
      pre.drop cursor ++ bytes (ps.flatMap (Verdict.apply judge)) := by
  induction ps generalizing pre cursor with
  | nil => simp [locate, edited, Edit.splice]
  | cons p ps ih =>
    -- a piece that stays as it is belongs to what was read already
    have hkept (t : List Char) {n : Nat} (hn : n = pre.length + utf8Size t) :
        Edit.splice (pre ++ bytes (t ++ Piece.render ps)) cursor
            ((edited judge (locate n ps)).map Located.edit) =
          pre.drop cursor ++ bytes (t ++ ps.flatMap (Verdict.apply judge)) := by
      have hnext := ih (pre ++ bytes t) cursor (by rw [List.length_append]; omega)
      rw [List.length_append, length_bytes, ← hn, List.drop_append_of_le_length h] at hnext
      rw [bytes_append, bytes_append, ← List.append_assoc, hnext, List.append_assoc]
    cases p with
    | plain c => exact hkept [c] rfl
    | statement i =>
      rw [locate, List.flatMap_cons, Verdict.apply_statement]
      cases hbody : (judge i).body? with
      | none =>
        rw [edited_cons_of_none hbody, Option.getD_none, ← Import.text]
        exact hkept i.text rfl
      | some body =>
        have hnext := ih (pre ++ bytes i.text) (Located.mk pre.length i).bodyStop
          (by simpa [Located.stop] using Located.bodyStop_le_stop ⟨pre.length, i⟩)
        rw [List.length_append, length_bytes, List.append_assoc, Located.drop_bodyStop rfl] at hnext
        rw [edited_cons_of_some hbody, Piece.render_statement, bytes_append]
        calc ((pre ++ (bytes i.text ++ bytes (Piece.render ps))).take
                (Located.mk pre.length i).bodyStart).drop cursor ++
              (bytes body ++ Edit.splice (pre ++ (bytes i.text ++ bytes (Piece.render ps)))
                (Located.mk pre.length i).bodyStop
                ((edited judge (locate (pre.length + utf8Size i.text) ps)).map Located.edit))
            = (pre.drop cursor ++ bytes i.opening) ++ (bytes body ++ (bytes [i.quote.toChar] ++
                bytes (ps.flatMap (Verdict.apply judge)))) := by
              rw [Located.take_bodyStart rfl, List.drop_append_of_le_length h, hnext]
          _ = pre.drop cursor ++ bytes (i.opening ++ ((some body).getD i.body ++
                [i.quote.toChar]) ++ ps.flatMap (Verdict.apply judge)) := by
              simp

end

namespace Settings

variable (s : Settings) (d : Direction) (path : Path) (text : List Char)

/-- A pass writes the text with its edits. -/
theorem bytes_content :
    bytes (s.pass d path text).content = Edit.splice (bytes text) 0
      ((edited (s.judge d path.directory) (statements s.token text)).map Located.edit) := by
  have hsplice := splice_locate (s.judge d path.directory) (Piece.pieces s.token text) [] 0
    (Nat.le_refl 0)
  rw [Piece.render_pieces] at hsplice
  exact hsplice.symm

theorem fit_edited_statements :
    Edit.Fit (bytes text).length 0
      ((edited (s.judge d path.directory) (statements s.token text)).map Located.edit) := by
  have hfit := fit_edited (s.judge d path.directory) (Piece.pieces s.token text) (Nat.le_refl 0)
  rwa [Piece.render_pieces, Nat.zero_add, ← length_bytes] at hfit

/-- A pass counts its edits. -/
theorem replaced_eq_length :
    (s.pass d path text).replaced =
      (edited (s.judge d path.directory) (statements s.token text)).length := by
  rw [edited, List.length_filterMap_eq_countP, pass]
  dsimp only
  rw [← Piece.countP_locate (fun _ => rfl) 0]
  refine List.countP_congr ?_
  intro l _
  rw [Verdict.replaces, Option.isSome_map]
  cases s.judge d path.directory l.statement <;> simp [Verdict.body?]

end Settings

end ImportPaths
