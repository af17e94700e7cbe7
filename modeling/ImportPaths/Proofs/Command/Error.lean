import ImportPaths.Command.Error
import Mathlib.Tactic.ByContra

/-!
# What is told about a failure

A failure is told more about on its way up, one `Detail` after the other.  Only the first detail can
meet a plain disk failure: whatever it is, what it leaves is none (`not_isDisk_addTo`), and so a path
that is told later changes nothing.  Every other detail writes at one end of the message, and in the
end the message is that of the failure, with its file named if that was told first, and all that was
written around it (`message_withDetails`).

A report is worded apart from the message, and says the same (`report_text`).
-/

namespace ImportPaths

/-- What can be told about a failure. -/
inductive Detail where
  /-- The file that an operation failed on. -/
  | path (p : Path)
  /-- Advice. -/
  | hint (advice : String)
  /-- What was being done. -/
  | context (doing : String)

namespace Detail

/-- Tells a detail about a failure. -/
def addTo : Detail → CommandError → CommandError
  | .path p => CommandError.withPath p
  | .hint advice => CommandError.withHint advice
  | .context doing => CommandError.context doing

/-- What a detail writes in front of a message, -/
def front : Detail → String
  | .context doing => doing ++ ": "
  | .path _ | .hint _ => ""

/-- and what it writes at the end. -/
def back : Detail → String
  | .hint advice => "\n\nHint: " ++ advice
  | .path _ | .context _ => ""

/-- What details write in front: what is told later stands further out. -/
def fronts : List Detail → String
  | [] => ""
  | detail :: details => fronts details ++ detail.front

/-- What details write at the end. -/
def backs : List Detail → String
  | [] => ""
  | detail :: details => detail.back ++ backs details

end Detail

/-- Tells details about what failed, one after the other. -/
def tellAll {α : Type} (details : List Detail) (r : Except CommandError α) :
    Except CommandError α :=
  details.foldl (fun r detail => r.mapError detail.addTo) r

/-! ## Reports -/

theorem RunError.report_text (e : RunError) : e.report.text = e.message := by
  cases e <;> rfl

namespace CommandError

variable {e : CommandError}

theorem report_text (e : CommandError) : e.report.text = e.message := by
  cases e with
  | run e => exact e.report_text
  | _ => rfl

/-! ## One detail -/

/-- A failed disk operation about which nothing was told. -/
def IsDisk (e : CommandError) : Prop := ∃ fault, e = .disk fault

theorem withPath_of_not_isDisk (h : ¬e.IsDisk) (p : Path) : e.withPath p = e := by
  cases e with
  | disk fault => exact absurd ⟨fault, rfl⟩ h
  | _ => rfl

/-- No detail leaves a plain disk failure. -/
theorem not_isDisk_addTo (detail : Detail) (e : CommandError) : ¬(detail.addTo e).IsDisk := by
  rintro ⟨fault, h⟩
  cases detail with
  | hint advice => cases h
  | context doing => cases h
  | path p =>
    cases e with
    | disk fault' =>
      rw [Detail.addTo, withPath] at h
      split at h <;> cases h
    | _ => cases h

/-- A path changes a plain disk failure and nothing else. -/
theorem withPath_ne_self_iff {p : Path} : e.withPath p ≠ e ↔ e.IsDisk := by
  constructor
  · intro hne
    by_contra hdisk
    exact hne (withPath_of_not_isDisk hdisk p)
  · intro hdisk heq
    rw [← heq] at hdisk
    exact not_isDisk_addTo (.path p) e hdisk

theorem message_withHint (advice : String) (e : CommandError) :
    (e.withHint advice).message = e.message ++ "\n\nHint: " ++ advice := rfl

theorem message_context (doing : String) (e : CommandError) :
    (e.context doing).message = doing ++ ": " ++ e.message := rfl

/-- A detail about anything but a plain disk failure writes around its message. -/
theorem message_addTo (h : ¬e.IsDisk) (detail : Detail) :
    (detail.addTo e).message = detail.front ++ e.message ++ detail.back := by
  cases detail with
  | path p =>
    rw [Detail.addTo, withPath_of_not_isDisk h, Detail.front, Detail.back, String.empty_append,
      String.append_empty]
  | hint advice =>
    rw [Detail.addTo, message_withHint, Detail.front, Detail.back, String.empty_append,
      String.append_assoc]
  | context doing =>
    rw [Detail.addTo, message_context, Detail.front, Detail.back, String.append_empty]

/-! ## All details -/

/-- A failure about which details were told, one after the other. -/
def withDetails (details : List Detail) (e : CommandError) : CommandError :=
  details.foldl (fun e detail => detail.addTo e) e

/-- A failure with its file named, if that is the first thing told about it. -/
def named : List Detail → CommandError → CommandError
  | .path p :: _, e => e.withPath p
  | _, e => e

theorem withDetails_cons (detail : Detail) (details : List Detail) (e : CommandError) :
    e.withDetails (detail :: details) = (detail.addTo e).withDetails details := rfl

theorem withDetails_concat (details : List Detail) (detail : Detail) (e : CommandError) :
    e.withDetails (details ++ [detail]) = detail.addTo (e.withDetails details) := by
  rw [withDetails, List.foldl_append, List.foldl_cons, List.foldl_nil, ← withDetails]

theorem not_isDisk_withDetails (h : ¬e.IsDisk) (details : List Detail) :
    ¬(e.withDetails details).IsDisk := by
  induction details generalizing e with
  | nil => exact h
  | cons detail details ih => exact ih (not_isDisk_addTo detail e)

/-- A plain disk failure is left only where nothing was told about one. -/
theorem isDisk_withDetails_iff {details : List Detail} :
    (e.withDetails details).IsDisk ↔ details = [] ∧ e.IsDisk := by
  cases details with
  | nil => exact (and_iff_right rfl).symm
  | cons detail details =>
    have hleft := not_isDisk_withDetails (not_isDisk_addTo detail e) details
    simp [withDetails_cons, hleft]

theorem message_withDetails_of_not_isDisk (h : ¬e.IsDisk) (details : List Detail) :
    (e.withDetails details).message =
      Detail.fronts details ++ e.message ++ Detail.backs details := by
  induction details generalizing e with
  | nil => rw [Detail.fronts, Detail.backs, String.empty_append, String.append_empty]; rfl
  | cons detail details ih =>
    rw [withDetails_cons, ih (not_isDisk_addTo detail e), message_addTo h, Detail.fronts,
      Detail.backs]
    simp only [String.append_assoc]

/-- The first detail of all may be the name of the file; the others write around the message. -/
theorem message_withDetails (details : List Detail) (e : CommandError) :
    (e.withDetails details).message =
      Detail.fronts details ++ (e.named details).message ++ Detail.backs details := by
  cases details with
  | nil => rw [Detail.fronts, Detail.backs, String.empty_append, String.append_empty]; rfl
  | cons detail details =>
    have hfirst : (detail.addTo e).message =
        detail.front ++ (e.named (detail :: details)).message ++ detail.back := by
      cases detail with
      | path p =>
        rw [Detail.front, Detail.back, String.empty_append, String.append_empty]
        rfl
      | hint advice =>
        rw [Detail.front, Detail.back, String.empty_append, ← String.append_assoc]
        rfl
      | context doing =>
        rw [Detail.front, Detail.back, String.append_empty]
        rfl
    rw [withDetails_cons, message_withDetails_of_not_isDisk (not_isDisk_addTo detail e), hfirst,
      Detail.fronts, Detail.backs]
    simp only [String.append_assoc]

end CommandError

/-! ## Results -/

theorem tellAll_ok {α : Type} (details : List Detail) (a : α) :
    tellAll details (.ok a) = .ok a := by
  induction details with
  | nil => rfl
  | cons detail details ih => exact ih

theorem tellAll_error {α : Type} (details : List Detail) (e : CommandError) :
    tellAll details (.error e : Except CommandError α) = .error (e.withDetails details) := by
  induction details generalizing e with
  | nil => rfl
  | cons detail details ih => exact ih (detail.addTo e)

/-- A success stays as it is, whatever is told.  A failure is changed by a path only while it is a
plain disk failure about which nothing was told: it then is a missing file, or the path and the
words of the failure.  What was being done goes in front of the message reached so far and advice to
its end, so that the message is always the one at the start, with its file named if that was told
first, and around it what was told, the last outermost.  The report always has the message for its
text. -/
theorem details_compose {α : Type} (details : List Detail) (e : CommandError) :
    (∀ a : α, tellAll details (.ok a) = .ok a) ∧
    tellAll details (.error e : Except CommandError α) = .error (e.withDetails details) ∧
    (∀ p, e.withDetails (details ++ [.path p]) ≠ e.withDetails details ↔
      details = [] ∧ ∃ fault, e = .disk fault) ∧
    (∀ fault p, (CommandError.disk fault).withDetails [.path p] =
      if fault.isNotFound then .fileNotFound p
      else .custom (p.toString ++ ": " ++ fault.message)) ∧
    (∀ doing, (e.withDetails (details ++ [.context doing])).message =
      doing ++ ": " ++ (e.withDetails details).message) ∧
    (∀ advice, (e.withDetails (details ++ [.hint advice])).message =
      (e.withDetails details).message ++ "\n\nHint: " ++ advice) ∧
    (e.withDetails details).message =
      Detail.fronts details ++ (e.named details).message ++ Detail.backs details ∧
    (e.withDetails details).report.text = (e.withDetails details).message := by
  refine ⟨tellAll_ok details, tellAll_error details e, ?_, fun _ _ => rfl, ?_, ?_,
    CommandError.message_withDetails details e, CommandError.report_text _⟩
  · intro p
    rw [CommandError.withDetails_concat]
    exact CommandError.withPath_ne_self_iff.trans CommandError.isDisk_withDetails_iff
  · intro doing
    rw [CommandError.withDetails_concat]
    exact CommandError.message_context doing _
  · intro advice
    rw [CommandError.withDetails_concat]
    exact CommandError.message_withHint advice _

/-- A file is named once, and what was being done stands in front of the words for that. -/
example : ((CommandError.disk .notFound).withDetails [.path (.ofString "a.json"),
    .hint "Try init", .context "Loading", .path (.ofString "b.json")]).message =
      "Loading: File not found: a.json\n\nHint: Try init" := by decide

end ImportPaths
