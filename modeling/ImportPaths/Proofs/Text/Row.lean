import ImportPaths.Text.Blank
import Mathlib.Computability.Language

/-!
# What a pattern describes

A pattern that is read from a text and matched against another, as far as it is a row of parts from
the start of a text (`^`) to its end (`$`).  Each part is a character, or any character but some
that are named in brackets, and stands once, at most once (`?`) or any number of times (`*`).  Signs
with another meaning in patterns are not read, so that nothing is taken for what it is not.

A row describes a `Language`, and a pattern matches the texts of the row that it is read as
(`Matches`).
-/

namespace ImportPaths.Text.Row

open Computability

/-! ## Rows -/

/-- What a set in brackets leaves out. -/
inductive Exclusion where
  | char (c : Char)
  /-- Every blank, written `\s`. -/
  | blank
deriving DecidableEq

def Exclusion.excludes (c : Char) : Exclusion → Bool
  | .char d => c == d
  | .blank => isBlank c

/-- A single place of a row. -/
inductive Atom where
  | char (c : Char)
  /-- Any character that is not left out, written `[^…]`. -/
  | noneOf (exclusions : List Exclusion)
deriving DecidableEq

/-- How often a part stands in a row. -/
inductive Count where
  | once
  | maybe
  | many
deriving DecidableEq

structure Part where
  atom : Atom
  count : Count
deriving DecidableEq

/-! ## Reading -/

/-- The signs that do not stand for themselves. -/
def signs : List Char := "\\^$.|?*+()[]\x7b\x7d".toList

/-- The signs that do not stand for themselves in brackets. -/
def bracketSigns : List Char := "\\^[]-&~".toList

/-- What is left out up to the closing bracket, and what follows it.  After a backslash any sign
stands for itself. -/
def readExclusions : List Char → Option (List Exclusion × List Char)
  | [] => none
  | ']' :: s => some ([], s)
  | '\\' :: 's' :: s => (readExclusions s).map fun (es, s) => (.blank :: es, s)
  | '\\' :: c :: s =>
    if c.isAlphanum then none
    else (readExclusions s).map fun (es, s) => (.char c :: es, s)
  | c :: s =>
    if bracketSigns.contains c then none
    else (readExclusions s).map fun (es, s) => (.char c :: es, s)

def readAtom : List Char → Option (Atom × List Char)
  | '[' :: '^' :: s => (readExclusions s).map fun (es, s) => (.noneOf es, s)
  | c :: s => if signs.contains c then none else some (.char c, s)
  | [] => none

def readCount : List Char → Count × List Char
  | '*' :: s => (.many, s)
  | '?' :: s => (.maybe, s)
  | s => (.once, s)

/-- The parts up to the end.  The bound is no less than the length of the text. -/
def readParts : Nat → List Char → Option (List Part)
  | _, ['$'] => some []
  | 0, _ => none
  | bound + 1, s =>
    match readAtom s with
    | none => none
    | some (atom, s) =>
      let (count, s) := readCount s
      (readParts bound s).map (⟨atom, count⟩ :: ·)

/-- The row that a pattern is. -/
def read? : List Char → Option (List Part)
  | '^' :: s => readParts s.length s
  | _ => none

/-! ## Languages -/

def Atom.language : Atom → Language Char
  | .char c => {[c]}
  | .noneOf es => {w | ∃ c, w = [c] ∧ ∀ e ∈ es, e.excludes c = false}

def Part.language (p : Part) : Language Char :=
  match p.count with
  | .once => p.atom.language
  | .maybe => 1 + p.atom.language
  | .many => p.atom.language∗

/-- The texts that a row describes: one text for each part, one after the other. -/
def language (row : List Part) : Language Char := (row.map Part.language).prod

/-- Whether a pattern describes a whole text. -/
def Matches (pattern text : List Char) : Prop :=
  ∃ row, read? pattern = some row ∧ text ∈ language row

variable {w : List Char} {es : List Exclusion} {row : List Part}

theorem mem_language_nil : w ∈ language [] ↔ w = [] := Language.mem_one w

theorem mem_language_cons {p : Part} :
    w ∈ language (p :: row) ↔ ∃ u ∈ p.language, ∃ v ∈ language row, u ++ v = w := by
  rw [language, List.map_cons, List.prod_cons]
  exact Language.mem_mul

theorem mem_noneOf : w ∈ (Atom.noneOf es).language ↔
    ∃ c, w = [c] ∧ ∀ e ∈ es, e.excludes c = false := Iff.rfl

theorem mem_maybe_char {c : Char} :
    w ∈ (Part.mk (.char c) .maybe).language ↔ w = [] ∨ w = [c] := Iff.rfl

/-- A set any number of times describes the texts of its characters. -/
theorem mem_many_noneOf : w ∈ (Part.mk (.noneOf es) .many).language ↔
    ∀ c ∈ w, ∀ e ∈ es, e.excludes c = false := by
  have hkstar : w ∈ (Part.mk (.noneOf es) .many).language ↔
      ∃ ws : List (List Char), w = ws.flatten ∧ ∀ u ∈ ws, u ∈ (Atom.noneOf es).language := Iff.rfl
  rw [hkstar]
  constructor
  · rintro ⟨ws, rfl, hws⟩ c hc
    obtain ⟨u, hu, hcu⟩ := List.mem_flatten.1 hc
    obtain ⟨d, rfl, hd⟩ := mem_noneOf.1 (hws u hu)
    rw [List.mem_singleton.1 hcu]
    exact hd
  · intro h
    refine ⟨w.map fun c => [c], by simp [← List.flatMap_def], ?_⟩
    refine List.forall_mem_map.2 ?_
    intro c hc
    exact ⟨c, rfl, h c hc⟩

end ImportPaths.Text.Row
