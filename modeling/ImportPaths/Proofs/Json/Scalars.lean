import ImportPaths.Json.Reader
import Mathlib.Data.List.TakeWhile

/-!
# Strings and numbers of the format

The two parts of a text that are read character by character.  A string is a row of marks, each a
character or an escape, and is read up to its closing quote as what its marks stand for
(`Mark.unquote_marks`).  A number has no closing sign: it is read up to what cannot be part of it
(`readNumber_append`), and so what may stand after a value is said once, by `Ends`.  What is read as
a number from its start to its end is a numeral (`Numeral.exists_readNumber_iff`).
-/

namespace ImportPaths.Json

/-! ## Strings -/

/-- The escapes of one letter, and what they are written for. -/
def shortEscapes : List (Char × Char) :=
  [('"', '"'), ('\\', '\\'), ('/', '/'), ('b', '\x08'), ('f', '\x0c'), ('n', '\n'), ('r', '\r'),
    ('t', '\t')]

/-- A sign of a string, as it is written. -/
inductive Mark where
  | plain (c : Char) (h : c ≠ '"' ∧ c ≠ '\\' ∧ 0x20 ≤ c.toNat)
  | short (letter c : Char) (h : (letter, c) ∈ shortEscapes)
  /-- Four digits of base 16, for a character or for half of a pair. -/
  | unit (a b c d : Char) (n : Nat) (h : hex4? a b c d = some n)

namespace Mark

def text : Mark → List Char
  | plain c _ => [c]
  | short letter _ _ => ['\\', letter]
  | unit a b c d _ _ => ['\\', 'u', a, b, c, d]

def code : Mark → Nat
  | plain c _ => c.toNat
  | short _ c _ => c.toNat
  | unit _ _ _ _ n _ => n

/-- The text that some marks stand for, if no half of a pair stands on its own. -/
def chars? : List Mark → Option (List Char)
  | [] => some []
  | m :: ms =>
    if isHighSurrogate m.code then
      match ms with
      | [] => none
      | m' :: ms =>
        if isLowSurrogate m'.code then
          (chars? ms).map
            (Char.ofNat (0x10000 + (m.code - 0xD800) * 0x400 + (m'.code - 0xDC00)) :: ·)
        else none
    else if isLowSurrogate m.code then none
    else (chars? ms).map (Char.ofNat m.code :: ·)

/-- Some marks between quotes. -/
def quoted (ms : List Mark) : List Char := '"' :: (ms.flatMap text ++ ['"'])

variable {c : Char} {s : List Char}

theorem not_surrogate_toNat (c : Char) :
    isHighSurrogate c.toNat = false ∧ isLowSurrogate c.toNat = false := by
  have hvalid : c.toNat < 0xD800 ∨ 0xDFFF < c.toNat ∧ c.toNat < 0x110000 := c.valid
  simp only [isHighSurrogate, isLowSurrogate, Bool.and_eq_false_iff, decide_eq_false_iff_not]
  omega

theorem chars?_cons (m : Mark) (hhigh : isHighSurrogate m.code = false)
    (hlow : isLowSurrogate m.code = false) (ms : List Mark) :
    chars? (m :: ms) = (chars? ms).map (Char.ofNat m.code :: ·) := by
  cases ms <;> simp [chars?, hhigh, hlow]

theorem unescape?_of_mem : ∀ e ∈ shortEscapes, unescape? e.1 = some e.2 ∧ e.1 ≠ 'u' := by decide

theorem unquote_plain (h : c ≠ '"' ∧ c ≠ '\\' ∧ 0x20 ≤ c.toNat) (s : List Char) :
    unquote (c :: s) = push c (unquote s) := by
  have hplain : ¬(c = '\\' ∨ c.toNat < 0x20) := by
    rw [not_or, Nat.not_lt]
    exact h.2
  rw [unquote, if_neg hplain]
  · exact h.1
  all_goals
    intros
    exact h.2.1 ‹_›

theorem unquote_short {letter : Char} (h : (letter, c) ∈ shortEscapes) (s : List Char) :
    unquote ('\\' :: letter :: s) = push c (unquote s) := by
  obtain ⟨hletter, hu⟩ := unescape?_of_mem _ h
  rw [unquote, hletter]
  intros
  exact hu ‹_›

/-- A mark that is not half of a pair is read as the character it stands for. -/
theorem unquote_append (m : Mark) (hhigh : isHighSurrogate m.code = false)
    (hlow : isLowSurrogate m.code = false) (s : List Char) :
    unquote (m.text ++ s) = push (Char.ofNat m.code) (unquote s) := by
  cases m with
  | plain c h =>
    rw [code, Char.ofNat_toNat]
    exact unquote_plain h s
  | short letter c h =>
    rw [code, Char.ofNat_toNat]
    exact unquote_short h s
  | unit a b c d n h =>
    simp only [code] at hhigh hlow
    simp [text, code, unquote, h, hhigh, hlow]

/-- Only four digits of base 16 are ever half of a pair. -/
theorem exists_text_eq {m : Mark}
    (h : isHighSurrogate m.code = true ∨ isLowSurrogate m.code = true) :
    ∃ a b c d, m.text = ['\\', 'u', a, b, c, d] ∧ hex4? a b c d = some m.code := by
  cases m with
  | plain c _ | short _ c _ => simp [code, not_surrogate_toNat] at h
  | unit a b c d n hn => exact ⟨a, b, c, d, rfl, hn⟩

theorem unquote_low {m : Mark} (hlow : isLowSurrogate m.code = true)
    (hhigh : isHighSurrogate m.code = false) (s : List Char) : unquote (m.text ++ s) = none := by
  obtain ⟨a, b, c, d, htext, hn⟩ := exists_text_eq (.inr hlow)
  simp [htext, unquote, hn, hlow, hhigh]

/-- After a first half, four digits must be the second half, -/
theorem unquote_high_unit {m : Mark} (hhigh : isHighSurrogate m.code = true) {a b c d : Char}
    {n : Nat} (hn : hex4? a b c d = some n) (s : List Char) :
    unquote (m.text ++ '\\' :: 'u' :: a :: b :: c :: d :: s) =
      if isLowSurrogate n then
        push (Char.ofNat (0x10000 + (m.code - 0xD800) * 0x400 + (n - 0xDC00))) (unquote s)
      else none := by
  obtain ⟨a', b', c', d', htext, hn'⟩ := exists_text_eq (.inl hhigh)
  rw [htext]
  simp only [List.cons_append, List.nil_append]
  rw [unquote.eq_3, hn']
  simp [hhigh, hn]

/-- and nothing else may stand there. -/
theorem unquote_high {m : Mark} (hhigh : isHighSurrogate m.code = true)
    (hs : ∀ a b c d t, s ≠ '\\' :: 'u' :: a :: b :: c :: d :: t) :
    unquote (m.text ++ s) = none := by
  obtain ⟨a, b, c, d, htext, hn⟩ := exists_text_eq (.inl hhigh)
  rw [htext]
  simp only [List.cons_append, List.nil_append]
  rw [unquote.eq_3, hn]
  dsimp only
  rw [if_pos hhigh]
  split
  · exact absurd rfl (hs _ _ _ _ _)
  · rfl

theorem unquote_high_append {m : Mark} (hhigh : isHighSurrogate m.code = true) (m' : Mark)
    (s : List Char) :
    unquote (m.text ++ (m'.text ++ s)) =
      if isLowSurrogate m'.code then
        push (Char.ofNat (0x10000 + (m.code - 0xD800) * 0x400 + (m'.code - 0xDC00))) (unquote s)
      else none := by
  cases m' with
  | plain c h =>
    rw [code, (not_surrogate_toNat c).2]
    refine unquote_high hhigh ?_
    intro a b c d t heq
    exact h.2.1 (List.cons.inj heq).1
  | short letter c h =>
    rw [code, (not_surrogate_toNat c).2]
    refine unquote_high hhigh ?_
    intro a b c d t heq
    exact (unescape?_of_mem _ h).2 (List.cons.inj (List.cons.inj heq).2).1
  | unit a b c d n hn => exact unquote_high_unit hhigh hn s

/-- The marks of a string are read up to the closing quote. -/
theorem unquote_marks (ms : List Mark) (rest : List Char) :
    unquote (ms.flatMap text ++ '"' :: rest) = (chars? ms).map (·, rest) := by
  have hpush (c : Char) (r : Option (List Char)) :
      push c (r.map (·, rest)) = (r.map (c :: ·)).map (·, rest) := by cases r <;> rfl
  fun_induction chars? ms with
  | case1 => rfl
  | case2 m hhigh =>
    rw [List.flatMap_singleton]
    exact unquote_high hhigh (by simp)
  | case3 m hhigh m' ms hlow ih =>
    rw [List.flatMap_cons, List.flatMap_cons, List.append_assoc, List.append_assoc,
      unquote_high_append hhigh, if_pos hlow, ih, hpush]
  | case4 m hhigh m' ms hlow =>
    rw [List.flatMap_cons, List.flatMap_cons, List.append_assoc, List.append_assoc,
      unquote_high_append hhigh, if_neg hlow]
    rfl
  | case5 m ms hhigh hlow =>
    rw [List.flatMap_cons, List.append_assoc, unquote_low hlow (by simpa using hhigh)]
    rfl
  | case6 m ms hhigh hlow ih =>
    rw [List.flatMap_cons, List.append_assoc,
      unquote_append m (by simpa using hhigh) (by simpa using hlow), ih, hpush]

end Mark

/-! ## What may follow a value -/

variable {c : Char} {s t ds rest : List Char}

/-- What may follow a value: a blank, a sign that ends an item, or nothing. -/
def Ends (rest : List Char) : Prop :=
  ∀ c ∈ rest.head?, isGap c = true ∨ c = ',' ∨ c = ']' ∨ c = '}'

theorem Ends.head?_ne (h : Ends rest)
    (hc : isGap c = false ∧ c ≠ ',' ∧ c ≠ ']' ∧ c ≠ '}') : rest.head? ≠ some c := by
  intro hhead
  rcases h c hhead with hgap | hsign
  · rw [hc.1] at hgap
    cases hgap
  · simp [hc] at hsign

/-- With the end of a value after it, a text starts with no sign that it did not start with. -/
theorem Ends.not_cons_append (ht : Ends t) (h : ∀ u, s = c :: u → False)
    (hc : isGap c = false ∧ c ≠ ',' ∧ c ≠ ']' ∧ c ≠ '}') : ∀ u, s ++ t = c :: u → False := by
  intro u hu
  cases s with
  | nil => exact ht.head?_ne hc (List.head?_eq_some_iff.2 ⟨u, hu⟩)
  | cons d s => exact h s (by rw [(List.cons.inj hu).1])

/-! ## Numbers -/

/-- The digits before a text do not go on in it. -/
def NoDigit (s : List Char) : Prop := ∀ c ∈ s.head?, c.isDigit = false

theorem Ends.noDigit (h : Ends rest) : NoDigit rest := by
  intro c hc
  rcases h c hc with h | rfl | rfl | rfl
  · simp only [isGap, Bool.or_eq_true, beq_iff_eq] at h
    rcases h with ((rfl | rfl) | rfl) | rfl <;> rfl
  all_goals rfl

theorem NoDigit.append (hs : NoDigit s) (ht : NoDigit t) : NoDigit (s ++ t) := by
  cases s with
  | nil => exact ht
  | cons c s => exact hs

theorem readDigits_eq_some_iff :
    readDigits s = some (ds, rest) ↔
      s = ds ++ rest ∧ ds ≠ [] ∧ (∀ c ∈ ds, c.isDigit = true) ∧ NoDigit rest := by
  have hread : readDigits s = some (ds, rest) ↔
      ds ≠ [] ∧ s.takeWhile Char.isDigit = ds ∧ s.dropWhile Char.isDigit = rest := by
    unfold readDigits
    cases htake : s.takeWhile Char.isDigit with
    | nil => simp only [reduceCtorEq, false_iff]; grind
    | cons d ds => simp only [Option.some.injEq, Prod.mk.injEq]; grind
  rw [hread]
  constructor
  · rintro ⟨hne, rfl, rfl⟩
    refine ⟨List.takeWhile_append_dropWhile.symm, hne, ?_, ?_⟩
    · intro c hc
      exact List.mem_takeWhile_imp hc
    · intro c hc
      have hhead := List.head?_dropWhile_not Char.isDigit s
      rw [hc] at hhead
      simpa using hhead
  · rintro ⟨rfl, hne, hds, hrest⟩
    rw [List.takeWhile_append_of_pos hds, List.dropWhile_append_of_pos hds]
    cases rest with
    | nil => simp [hne]
    | cons c rest => simp [hne, hrest c rfl]

theorem readDigits_append (h : readDigits s = some (ds, rest)) (ht : Ends t) :
    readDigits (s ++ t) = some (ds, rest ++ t) := by
  obtain ⟨rfl, hne, hds, hrest⟩ := readDigits_eq_some_iff.1 h
  exact readDigits_eq_some_iff.2 ⟨List.append_assoc _ _ _, hne, hds, hrest.append ht.noDigit⟩

theorem readWhole_eq_some_iff : readWhole s = some (ds, rest) ↔
    readDigits s = some (ds, rest) ∧ (ds.head? = some '0' → ds = ['0']) := by
  unfold readWhole
  constructor
  · intro h
    split at h
    · cases h
    · cases h
    · rename_i r hzero hdigits
      cases h
      refine ⟨hdigits, ?_⟩
      intro hhead
      obtain ⟨ds, rfl⟩ := List.head?_eq_some_iff.1 hhead
      cases ds with
      | nil => rfl
      | cons d ds => exact absurd rfl (hzero _ _ _)
  · rintro ⟨hdigits, hzero⟩
    rw [hdigits]
    split
    · rename_i hr
      cases hr
      cases hzero rfl
    · rename_i hr
      cases hr
    · rename_i hr
      exact hr.symm

theorem readWhole_append (h : readWhole s = some (ds, rest)) (ht : Ends t) :
    readWhole (s ++ t) = some (ds, rest ++ t) := by
  obtain ⟨hdigits, hzero⟩ := readWhole_eq_some_iff.1 h
  exact readWhole_eq_some_iff.2 ⟨readDigits_append hdigits ht, hzero⟩

theorem readFraction_append (h : readFraction s = some (ds, rest)) (ht : Ends t) :
    readFraction (s ++ t) = some (ds, rest ++ t) := by
  unfold readFraction at h
  split at h
  · exact readDigits_append h ht
  · rename_i hpoint
    cases h
    exact readFraction.eq_2 _ (ht.not_cons_append hpoint (by decide))

theorem readExponent_append {negative : Bool} (h : readExponent s = some (negative, ds, rest))
    (ht : Ends t) : readExponent (s ++ t) = some (negative, ds, rest ++ t) := by
  have hdigits {u : List Char} {b : Bool}
      (hu : (readDigits u).map (fun r => (b, r.1, r.2)) = some (negative, ds, rest)) :
      (readDigits (u ++ t)).map (fun r => (b, r.1, r.2)) = some (negative, ds, rest ++ t) := by
    obtain ⟨⟨ds', rest'⟩, hread, heq⟩ := Option.map_eq_some_iff.1 hu
    cases heq
    rw [readDigits_append hread ht]
    rfl
  fun_cases readExponent s with
  | case1 s => exact hdigits h
  | case2 s => exact hdigits h
  | case3 s hminus hplus =>
    rw [readExponent.eq_3 _ hminus hplus] at h
    rw [List.cons_append, readExponent.eq_3 _ (ht.not_cons_append hminus (by decide))
      (ht.not_cons_append hplus (by decide))]
    exact hdigits h
  | case4 s => exact hdigits h
  | case5 s => exact hdigits h
  | case6 s hminus hplus =>
    rw [readExponent.eq_6 _ hminus hplus] at h
    rw [List.cons_append, readExponent.eq_6 _ (ht.not_cons_append hminus (by decide))
      (ht.not_cons_append hplus (by decide))]
    exact hdigits h
  | case7 s hlower hupper =>
    rw [readExponent.eq_7 _ hlower hupper] at h
    cases h
    exact readExponent.eq_7 _ (ht.not_cons_append hlower (by decide))
      (ht.not_cons_append hupper (by decide))

/-- The parts of a number stand one after the other. -/
theorem readNumber_eq_some_iff {parts : NumberParts} :
    readNumber s = some (parts, rest) ↔ ∃ u v w,
      s = (if parts.negative then '-' :: u else u) ∧ readWhole u = some (parts.whole, v) ∧
        readFraction v = some (parts.fraction, w) ∧
        readExponent w = some (parts.exponentNegative, parts.exponent, rest) := by
  constructor
  · intro h
    fun_cases readNumber s with
    | case1 negative u hs hwhole =>
      simp only [readNumber, hs, hwhole] at h
      cases h
    | case2 negative u hs whole v hwhole hfraction =>
      simp [readNumber, hs, hwhole, hfraction] at h
    | case3 negative u hs whole v hwhole fraction w hfraction hexponent =>
      simp [readNumber, hs, hwhole, hfraction, hexponent] at h
    | case4 negative u hs whole v hwhole fraction w hfraction negated exponent r hexponent =>
      simp only [readNumber, hs, hwhole, hfraction, hexponent] at h
      cases h
      refine ⟨u, v, w, ?_, hwhole, hfraction, hexponent⟩
      split at hs <;> cases hs <;> rfl
  · obtain ⟨negative, whole, fraction, exponentNegative, exponent⟩ := parts
    rintro ⟨u, v, w, rfl, hwhole, hfraction, hexponent⟩
    dsimp only at hwhole hfraction hexponent
    cases negative with
    | true => simp [readNumber, hwhole, hfraction, hexponent]
    | false =>
      have hminus : ∀ s, u = '-' :: s → False := by
        rintro s rfl
        cases hwhole
      simp [readNumber.eq_2 u hminus, hwhole, hfraction, hexponent]

/-- A number is read up to what cannot be part of it. -/
theorem readNumber_append {parts : NumberParts} (h : readNumber s = some (parts, rest))
    (ht : Ends t) : readNumber (s ++ t) = some (parts, rest ++ t) := by
  obtain ⟨u, v, w, rfl, hwhole, hfraction, hexponent⟩ := readNumber_eq_some_iff.1 h
  refine readNumber_eq_some_iff.2 ⟨u ++ t, v ++ t, w ++ t, ?_, readWhole_append hwhole ht,
    readFraction_append hfraction ht, readExponent_append hexponent ht⟩
  split <;> rfl

/-! ## Numerals -/

/-- A run of digits, at least one. -/
abbrev Digits := {ds : List Char // ds ≠ [] ∧ ∀ c ∈ ds, c.isDigit = true}

/-- What may stand in front of the digits of an exponent. -/
def exponentMarks : List (List Char) :=
  ["e".toList, "e+".toList, "e-".toList, "E".toList, "E+".toList, "E-".toList]

/-- An exponent as it is written. -/
structure Exponent where
  mark : List Char
  mark_mem : mark ∈ exponentMarks
  digits : Digits

/-- A number as it is written. -/
structure Numeral where
  negative : Bool
  whole : Digits
  zero_alone : whole.1.head? = some '0' → whole.1 = ['0']
  fraction : Option Digits
  exponent : Option Exponent

namespace Numeral

def fractionText (fraction : Option Digits) : List Char := fraction.elim [] ('.' :: ·.1)

def exponentText (exponent : Option Exponent) : List Char :=
  exponent.elim [] fun e => e.mark ++ e.digits.1

def text (n : Numeral) : List Char :=
  (if n.negative then ['-'] else []) ++
    (n.whole.1 ++ (fractionText n.fraction ++ exponentText n.exponent))

theorem readDigits_eq (ds : Digits) (h : NoDigit rest) :
    readDigits (ds.1 ++ rest) = some (ds.1, rest) :=
  readDigits_eq_some_iff.2 ⟨rfl, ds.2.1, ds.2.2, h⟩

theorem exists_readFraction (fraction : Option Digits) (h : NoDigit rest)
    (hpoint : rest.head? ≠ some '.') :
    ∃ ds, readFraction (fractionText fraction ++ rest) = some (ds, rest) := by
  cases fraction with
  | none =>
    refine ⟨[], readFraction.eq_2 _ ?_⟩
    rintro s rfl
    exact hpoint rfl
  | some ds => exact ⟨ds.1, readDigits_eq ds h⟩

theorem exists_eq_fractionText (h : readFraction s = some (ds, rest)) :
    ∃ fraction, s = fractionText fraction ++ rest := by
  unfold readFraction at h
  split at h
  · obtain ⟨rfl, hne, hds, -⟩ := readDigits_eq_some_iff.1 h
    exact ⟨some ⟨ds, hne, hds⟩, rfl⟩
  · cases h
    exact ⟨none, rfl⟩

theorem exists_readExponent (exponent : Option Exponent) :
    ∃ negative ds, readExponent (exponentText exponent) = some (negative, ds, []) := by
  cases exponent with
  | none => exact ⟨false, [], rfl⟩
  | some e =>
    obtain ⟨mark, hmark, ds⟩ := e
    have hread (negative : Bool) :
        (readDigits ds.1).map (fun r => (negative, r.1, r.2)) = some (negative, ds.1, []) := by
      have hnil : NoDigit [] := by simp [NoDigit]
      have hdigits := readDigits_eq ds hnil
      rw [List.append_nil] at hdigits
      rw [hdigits]
      rfl
    -- the digits do not start with a sign
    have hsign (c : Char) (hc : c.isDigit = false) : ∀ s, ds.1 = c :: s → False := by
      intro s hs
      have hdigit := ds.2.2 c (by simp [hs])
      rw [hc] at hdigit
      cases hdigit
    simp only [exponentMarks, List.mem_cons, List.not_mem_nil, or_false] at hmark
    rcases hmark with rfl | rfl | rfl | rfl | rfl | rfl
    · exact ⟨_, _, (readExponent.eq_3 _ (hsign '-' rfl) (hsign '+' rfl)).trans (hread false)⟩
    · exact ⟨_, _, (readExponent.eq_2 _).trans (hread false)⟩
    · exact ⟨_, _, (readExponent.eq_1 _).trans (hread true)⟩
    · exact ⟨_, _, (readExponent.eq_6 _ (hsign '-' rfl) (hsign '+' rfl)).trans (hread false)⟩
    · exact ⟨_, _, (readExponent.eq_5 _).trans (hread false)⟩
    · exact ⟨_, _, (readExponent.eq_4 _).trans (hread true)⟩

theorem exists_eq_exponentText {negative : Bool} (h : readExponent s = some (negative, ds, [])) :
    ∃ exponent, s = exponentText exponent := by
  have hdigits (mark : List Char) (hmark : mark ∈ exponentMarks) {u : List Char} {b : Bool}
      (hu : (readDigits u).map (fun r => (b, r.1, r.2)) = some (negative, ds, [])) :
      ∃ exponent, mark ++ u = exponentText exponent := by
    obtain ⟨⟨ds', rest'⟩, hread, heq⟩ := Option.map_eq_some_iff.1 hu
    cases heq
    obtain ⟨rfl, hne, hds, -⟩ := readDigits_eq_some_iff.1 hread
    rw [List.append_nil]
    exact ⟨some ⟨mark, hmark, ds', hne, hds⟩, rfl⟩
  fun_cases readExponent s with
  | case1 s => exact hdigits "e-".toList (by decide) h
  | case2 s => exact hdigits "e+".toList (by decide) h
  | case3 s hminus hplus =>
    rw [readExponent.eq_3 _ hminus hplus] at h
    exact hdigits "e".toList (by decide) h
  | case4 s => exact hdigits "E-".toList (by decide) h
  | case5 s => exact hdigits "E+".toList (by decide) h
  | case6 s hminus hplus =>
    rw [readExponent.eq_6 _ hminus hplus] at h
    exact hdigits "E".toList (by decide) h
  | case7 s hlower hupper =>
    rw [readExponent.eq_7 _ hlower hupper] at h
    cases h
    exact ⟨none, rfl⟩

theorem head?_exponentText (exponent : Option Exponent) :
    ∀ c ∈ (exponentText exponent).head?, c = 'e' ∨ c = 'E' := by
  cases exponent with
  | none => simp [exponentText]
  | some e =>
    obtain ⟨mark, hmark, ds⟩ := e
    simp only [exponentMarks, List.mem_cons, List.not_mem_nil, or_false] at hmark
    rcases hmark with rfl | rfl | rfl | rfl | rfl | rfl <;> simp [exponentText]

theorem noDigit_exponentText (exponent : Option Exponent) : NoDigit (exponentText exponent) := by
  intro c hc
  rcases head?_exponentText exponent c hc with rfl | rfl <;> rfl

theorem noDigit_fractionText (fraction : Option Digits) : NoDigit (fractionText fraction) := by
  intro c hc
  cases fraction with
  | none => cases hc
  | some ds =>
    cases hc
    rfl

/-- What is read as a number from its start to its end is a numeral. -/
theorem exists_readNumber_iff :
    (∃ parts, readNumber s = some (parts, [])) ↔ ∃ n : Numeral, n.text = s := by
  constructor
  · rintro ⟨parts, h⟩
    obtain ⟨u, v, w, rfl, hwhole, hfraction, hexponent⟩ := readNumber_eq_some_iff.1 h
    obtain ⟨hdigits, hzero⟩ := readWhole_eq_some_iff.1 hwhole
    obtain ⟨rfl, hne, hds, -⟩ := readDigits_eq_some_iff.1 hdigits
    obtain ⟨fraction, rfl⟩ := exists_eq_fractionText hfraction
    obtain ⟨exponent, rfl⟩ := exists_eq_exponentText hexponent
    refine ⟨⟨parts.negative, ⟨parts.whole, hne, hds⟩, hzero, fraction, exponent⟩, ?_⟩
    rw [text]
    split <;> rfl
  · rintro ⟨⟨negative, whole, hzero, fraction, exponent⟩, rfl⟩
    have hpoint : (exponentText exponent).head? ≠ some '.' := by
      intro hhead
      rcases head?_exponentText exponent '.' hhead with h | h <;> cases h
    have hends := noDigit_exponentText exponent
    obtain ⟨exponentNegative, es, hexponent⟩ := exists_readExponent exponent
    obtain ⟨fs, hfraction⟩ := exists_readFraction fraction hends hpoint
    have hwhole := readWhole_eq_some_iff.2
      ⟨readDigits_eq whole ((noDigit_fractionText fraction).append hends), hzero⟩
    refine ⟨⟨negative, whole.1, fs, exponentNegative, es⟩, readNumber_eq_some_iff.2
      ⟨_, _, _, ?_, hwhole, hfraction, hexponent⟩⟩
    rw [text]
    cases negative <;> rfl

end Numeral

end ImportPaths.Json
