import Mathlib.Data.List.Infix

/-!
# Edits of bytes

An edit puts other bytes in the place of a stretch.  Edits that `Fit` come one after the other, and
`splice` makes them from left to right: it copies from where the last edit ended to where the next
one starts.  What no edit touches is kept, and stays behind what the edits before it make of the
front (`Fit.keeps`).
-/

namespace ImportPaths

/-- Bytes to put in the place of the stretch from `start` to `stop`. -/
structure Edit where
  start : Nat
  stop : Nat
  bytes : List UInt8
deriving DecidableEq

namespace Edit

variable {text x w y : List UInt8} {cursor m n size : Nat} {es front back : List Edit} {e : Edit}

/-- What the edits make of a text from the cursor on. -/
def splice (text : List UInt8) (cursor : Nat) : List Edit → List UInt8
  | [] => text.drop cursor
  | e :: es => (text.take e.start).drop cursor ++ (e.bytes ++ splice text e.stop es)

/-- The edits come one after the other, between the cursor and the end of the text. -/
def Fit (size cursor : Nat) : List Edit → Prop
  | [] => cursor ≤ size
  | e :: es => cursor ≤ e.start ∧ e.start ≤ e.stop ∧ Fit size e.stop es

theorem Fit.le (h : Fit size cursor es) : cursor ≤ size := by
  induction es generalizing cursor with
  | nil => exact h
  | cons e es ih =>
    have hstop := ih h.2.2
    have hstart := h.1
    have hle := h.2.1
    omega

theorem Fit.mono (h : Fit size cursor es) (hn : n ≤ cursor) : Fit size n es := by
  cases es with
  | nil => exact Nat.le_trans hn h
  | cons e es => exact ⟨Nat.le_trans hn h.1, h.2⟩

theorem Fit.le_start (h : Fit size cursor es) (he : e ∈ es) : cursor ≤ e.start := by
  induction es generalizing cursor with
  | nil => cases he
  | cons f es ih =>
    rcases List.mem_cons.1 he with rfl | he
    · exact h.1
    · exact ih (h.2.2.mono (Nat.le_trans h.1 h.2.1)) he

/-- Edits none of which reaches into a stretch lie before it or after it. -/
theorem Fit.exists_append (h : Fit size cursor es) (hcursor : cursor ≤ m)
    (hapart : ∀ e ∈ es, e.stop ≤ m ∨ n ≤ e.start) :
    ∃ front back, es = front ++ back ∧ Fit m cursor front ∧ ∀ e ∈ back, n ≤ e.start := by
  induction es generalizing cursor with
  | nil => exact ⟨[], [], rfl, hcursor, fun _ he => nomatch he⟩
  | cons e es ih =>
    obtain ⟨he, hes⟩ := List.forall_mem_cons.1 hapart
    rcases he with hstop | hstart
    · obtain ⟨front, back, rfl, hfront, hback⟩ := ih h.2.2 hstop hes
      exact ⟨e :: front, back, rfl, ⟨h.1, h.2.1, hfront⟩, hback⟩
    · refine ⟨[], e :: es, rfl, hcursor, ?_⟩
      intro f hf
      rcases List.mem_cons.1 hf with rfl | hf
      · exact hstart
      · exact Nat.le_trans hstart (Nat.le_trans h.2.1 (h.2.2.le_start hf))

/-- Edits before and after a stretch leave it behind what they make of the front. -/
theorem exists_splice_append (hfront : Fit x.length cursor front)
    (hback : ∀ e ∈ back, x.length + w.length ≤ e.start) (y : List UInt8) :
    ∃ rest, splice (x ++ (w ++ y)) cursor (front ++ back) =
      splice x cursor front ++ (w ++ rest) := by
  induction front generalizing cursor with
  | nil =>
    have hcursor : cursor ≤ x.length := hfront
    cases back with
    | nil =>
      refine ⟨y, ?_⟩
      rw [List.append_nil, splice, splice, List.drop_append_of_le_length hcursor]
    | cons e back =>
      have hstart := hback e List.mem_cons_self
      refine ⟨y.take (e.start - (x ++ w).length) ++
        (e.bytes ++ splice (x ++ (w ++ y)) e.stop back), ?_⟩
      have htake : (x ++ (w ++ y)).take e.start =
          x ++ (w ++ y.take (e.start - (x ++ w).length)) := by
        rw [← List.append_assoc, List.take_append, List.take_of_length_le (by simpa using hstart),
          List.append_assoc]
      rw [List.nil_append, splice, splice, htake, List.drop_append_of_le_length hcursor]
      simp only [List.append_assoc]
  | cons e front ih =>
    obtain ⟨hstart, hstop, hfront⟩ := hfront
    obtain ⟨rest, hrest⟩ := ih hfront
    refine ⟨rest, ?_⟩
    rw [List.cons_append, splice, splice, hrest, List.take_append_of_le_length
      (Nat.le_trans hstop hfront.le)]
    simp only [List.append_assoc]

/-- Some edits keep `w`, which stands after `x`: what comes out is what they make of `x`, and then
`w`. -/
def Keeps (es : List Edit) (x w out : List UInt8) : Prop :=
  ∃ front back rest, es = front ++ back ∧ Fit x.length 0 front ∧
    (∀ e ∈ back, x.length + w.length ≤ e.start) ∧ out = splice x 0 front ++ (w ++ rest)

theorem Fit.keeps (h : Fit size 0 es)
    (hapart : ∀ e ∈ es, e.stop ≤ x.length ∨ x.length + w.length ≤ e.start) (y : List UInt8) :
    Keeps es x w (splice (x ++ (w ++ y)) 0 es) := by
  obtain ⟨front, back, rfl, hfront, hback⟩ := h.exists_append (Nat.zero_le _) hapart
  obtain ⟨rest, hrest⟩ := exists_splice_append hfront hback y
  exact ⟨front, back, rest, rfl, hfront, hback, hrest⟩

end Edit

end ImportPaths
