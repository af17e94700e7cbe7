import ImportPaths.Proofs.Source.Candidates
import Mathlib.Data.List.Forall2
import Mathlib.Data.List.Nodup
import Mathlib.Data.Option.Basic

/-!
# Scanning finds the statements

`scan` looks for each keyword on its own and puts the matches in order afterwards.  Three facts make
that the same as reading a text from left to right (`scan_eq`):

* the first byte of a keyword stands nowhere else in it, so a search that passes over what it has
  found misses no place (`mem_findAll_iff`);
* at such a place the bytes are checked for what the grammar asks (`candidateAt?_eq_some_iff`), and
  what passes is read at a character, so its specifier can be cut out and has a form exactly when
  the grammar says so (`exists_opening_of_match?`);
* no two matches start at the same byte, so there is only one way to sort them.

So a scan gives, in order, what one selection from left to right keeps of all candidates
(`scan_eq_pick`).
-/

namespace ImportPaths

open ImportPaths.Text

/-! ## Looking for a keyword -/

section

variable {b c : UInt8} {bs cs : List UInt8} {k n skip offset : Nat}

/-- A needle whose first byte stands nowhere else in it does not overlap itself. -/
theorem length_le_of_overlap (hb : b ∉ bs) (h : b :: bs <+: c :: cs) (hk : b :: bs <+: cs.drop k) :
    bs.length ≤ k := by
  by_contra hlt
  obtain ⟨-, t, rfl⟩ := List.cons_prefix_cons.1 h
  rw [List.drop_append_of_le_length (by omega)] at hk
  obtain ⟨d, ds, hd⟩ := List.exists_cons_of_length_pos (l := bs.drop k)
    (by rw [List.length_drop]; omega)
  rw [hd, List.cons_append, List.cons_prefix_cons] at hk
  have hmem : d ∈ bs.drop k := by simp [hd]
  exact hb (hk.1 ▸ List.mem_of_mem_drop hmem)

theorem mem_findAll_skip_iff (hb : b ∉ bs) :
    n ∈ findAll (b :: bs) skip offset cs ↔
      ∃ k, n = offset + k ∧ skip ≤ k ∧ b :: bs <+: cs.drop k := by
  induction cs generalizing skip offset with
  | nil => simp [findAll]
  | cons c cs ih =>
    -- what is found in the rest has an offset that is greater by one
    have hrest (m : Nat) : (∃ k, n = offset + 1 + k ∧ m ≤ k ∧ b :: bs <+: cs.drop k) ↔
        ∃ k, n = offset + k ∧ m + 1 ≤ k ∧ b :: bs <+: (c :: cs).drop k := by
      constructor
      · rintro ⟨k, rfl, hk, hfound⟩
        exact ⟨k + 1, by omega, by omega, hfound⟩
      · rintro ⟨k, rfl, hk, hfound⟩
        obtain ⟨j, rfl⟩ := Nat.exists_eq_add_of_le' (Nat.le_trans (Nat.le_add_left 1 m) hk)
        exact ⟨j, by omega, by omega, hfound⟩
    cases skip with
    | succ skip => rw [findAll, ih, hrest]
    | zero =>
      rw [findAll]
      split
      · rename_i hfront
        rw [List.isPrefixOf_iff_prefix] at hfront
        rw [List.mem_cons, ih, hrest]
        constructor
        · rintro (rfl | ⟨k, rfl, -, hfound⟩)
          · exact ⟨0, rfl, Nat.le_refl 0, hfront⟩
          · exact ⟨k, rfl, Nat.zero_le k, hfound⟩
        · rintro ⟨k, rfl, -, hfound⟩
          cases k with
          | zero => exact Or.inl rfl
          | succ k =>
            have hle := length_le_of_overlap hb hfront hfound
            exact Or.inr ⟨k + 1, rfl, Nat.succ_le_succ hle, hfound⟩
      · rename_i hfront
        rw [List.isPrefixOf_iff_prefix] at hfront
        rw [ih, hrest]
        constructor
        · rintro ⟨k, rfl, -, hfound⟩
          exact ⟨k, rfl, Nat.zero_le k, hfound⟩
        · rintro ⟨k, rfl, -, hfound⟩
          cases k with
          | zero => exact absurd hfound hfront
          | succ k => exact ⟨k + 1, rfl, Nat.succ_le_succ (Nat.zero_le k), hfound⟩

theorem pairwise_findAll (needle : List UInt8) (skip offset : Nat) (cs : List UInt8) :
    (findAll needle skip offset cs).Pairwise (· < ·) ∧
      ∀ n ∈ findAll needle skip offset cs, offset ≤ n := by
  induction cs generalizing skip offset with
  | nil => simp [findAll]
  | cons c cs ih =>
    have hrest (m : Nat) := ih m (offset + 1)
    cases skip with
    | succ skip =>
      rw [findAll]
      exact ⟨(hrest skip).1, fun n hn => Nat.le_of_succ_le ((hrest skip).2 n hn)⟩
    | zero =>
      rw [findAll]
      split
      · refine ⟨List.pairwise_cons.2 ⟨(hrest _).2, (hrest _).1⟩, ?_⟩
        intro n hn
        rcases List.mem_cons.1 hn with rfl | hn
        · exact Nat.le_refl n
        · exact Nat.le_of_succ_le ((hrest _).2 n hn)
      · exact ⟨(hrest 0).1, fun n hn => Nat.le_of_succ_le ((hrest 0).2 n hn)⟩

end

/-- The search for a keyword finds each place at which it stands. -/
theorem mem_findAll_iff {kind : ImportKind} {text : List UInt8} {n : Nat} :
    n ∈ findAll (bytes kind.keyword) 0 0 text ↔ bytes kind.keyword <+: text.drop n := by
  obtain ⟨b, bs, hkeyword, hb⟩ : ∃ b bs, bytes kind.keyword = b :: bs ∧ b ∉ bs := by
    cases kind
    · exact ⟨_, _, rfl, by decide⟩
    · exact ⟨_, _, rfl, by decide⟩
  rw [hkeyword, mem_findAll_skip_iff hb]
  simp

/-! ## Around a keyword -/

theorem followsWord_eq_false_iff {text : List UInt8} {start : Nat} :
    followsWord text start = false ↔
      ∀ n b, start = n + 1 → text[n]? = some b → isWordByte b = false := by
  cases start with
  | zero => simp [followsWord]
  | succ n =>
    rw [followsWord]
    constructor
    · rintro h m b hm hb
      obtain rfl := Nat.succ.inj hm
      rwa [hb] at h
    · intro h
      cases hb : text[n]? with
      | none => rfl
      | some b => exact h n b rfl hb

theorem Quote.ofByte?_eq_some_iff {b : UInt8} {q : Quote} :
    Quote.ofByte? b = some q ↔ b = q.toByte := by
  unfold ofByte?
  split
  · rename_i h
    subst h
    cases q <;> decide
  · rename_i hsingle
    split
    · rename_i h
      subst h
      cases q <;> decide
    · rename_i hdouble
      cases q
      · simp [toByte, hsingle]
      · simp [toByte, hdouble]

theorem Quote.not_isBodyByte (q : Quote) : isBodyByte q.toByte = false := by
  cases q <;> rfl

theorem Quote.not_isBlankByte (q : Quote) : isBlankByte q.toByte = false := by
  cases q <;> rfl

theorem closingQuote?_eq_some_iff {q : Quote} {bs : List UInt8} {n : Nat} :
    closingQuote? q bs = some n ↔
      ∃ body rest, bs = body ++ q.toByte :: rest ∧ (∀ b ∈ body, isBodyByte b = true) ∧
        body.length = n := by
  induction bs generalizing n with
  | nil => simp [closingQuote?]
  | cons b bs ih =>
    rw [closingQuote?]
    split
    · rename_i hb
      rw [Option.some.injEq]
      constructor
      · rintro rfl
        exact ⟨[], bs, by rw [hb]; rfl, by simp, rfl⟩
      · rintro ⟨body, rest, h, hbody, rfl⟩
        cases body with
        | nil => rfl
        | cons c body =>
          obtain ⟨rfl, -⟩ := List.cons.inj h
          have hquote := hbody b List.mem_cons_self
          rw [hb, q.not_isBodyByte] at hquote
          cases hquote
    · rename_i hb
      split
      · rename_i hbody
        simp only [Option.map_eq_some_iff, ih]
        constructor
        · rintro ⟨_, ⟨body, rest, rfl, hall, rfl⟩, rfl⟩
          exact ⟨b :: body, rest, rfl, List.forall_mem_cons.2 ⟨hbody, hall⟩, rfl⟩
        · rintro ⟨body, rest, h, hall, rfl⟩
          cases body with
          | nil => exact absurd (List.cons.inj h).1 hb
          | cons c body =>
            obtain ⟨-, rfl⟩ := List.cons.inj h
            exact ⟨body.length, ⟨body, rest, rfl, (List.forall_mem_cons.1 hall).2, rfl⟩, rfl⟩
      · rename_i hbody
        simp only [reduceCtorEq, false_iff]
        rintro ⟨body, rest, h, hall, -⟩
        cases body with
        | nil => exact hb (List.cons.inj h).1
        | cons c body =>
          obtain ⟨rfl, -⟩ := List.cons.inj h
          exact hbody (hall b List.mem_cons_self)

/-- Where a keyword stands, the check passes for what the grammar asks of the bytes. -/
theorem candidateAt?_eq_some_iff {text : List UInt8} {kind : ImportKind} {start : Nat}
    {c : Candidate} (hkeyword : bytes kind.keyword <+: text.drop start) :
    candidateAt? text kind start = some c ↔
      c.kind = kind ∧ c.start = start ∧ c.Shaped text := by
  obtain ⟨after, hafter⟩ := hkeyword
  have hdrop : text.drop (start + (bytes kind.keyword).length) = after := by
    rw [← List.drop_drop, ← hafter, List.drop_left]
  simp only [candidateAt?, hdrop, Option.bind_eq_bind, Option.bind_eq_some_iff, Option.guard_eq_some',
    Option.pure_def, Option.some.injEq, exists_const]
  constructor
  · rintro ⟨hword, hgap, q, ⟨mark, hmark, hq⟩, size, hsize, hne, rfl⟩
    obtain ⟨inner, hrest⟩ := List.head?_eq_some_iff.1 hmark
    obtain ⟨body, rest, hinner, hbody, rfl⟩ := closingQuote?_eq_some_iff.1 hsize
    rw [hrest, List.tail_cons] at hinner
    rw [hinner, Quote.ofByte?_eq_some_iff.1 hq] at hrest
    have htake : ((after.dropWhile isBlankByte).tail).take body.length = body := by
      rw [hrest, List.tail_cons, List.take_left]
    rw [htake]
    refine ⟨rfl, rfl, ?_, followsWord_eq_false_iff.1 hword, hgap,
      fun b hb => List.mem_takeWhile_imp hb, ?_, hbody⟩
    · have hparts : after.takeWhile isBlankByte ++ q.toByte :: (body ++ q.toByte :: rest) =
          after := by
        rw [← hrest]
        exact List.takeWhile_append_dropWhile
      refine ⟨rest, ?_⟩
      calc bytes kind.keyword ++ (after.takeWhile isBlankByte ++
            q.toByte :: (body ++ [q.toByte])) ++ rest
          = bytes kind.keyword ++ (after.takeWhile isBlankByte ++
              q.toByte :: (body ++ q.toByte :: rest)) := by simp
        _ = text.drop start := by rw [hparts, hafter]
    · rintro rfl
      exact hne rfl
  · rintro ⟨rfl, rfl, hc⟩
    obtain ⟨rest, hrest⟩ := hc.stands
    have hparts : after = c.gap ++ c.quote.toByte :: (c.body ++ c.quote.toByte :: rest) := by
      rw [← hrest, Candidate.toBytes, List.append_assoc] at hafter
      simpa using List.append_cancel_left hafter
    have hgap : after.takeWhile isBlankByte = c.gap := by
      rw [hparts, Import.takeWhile_append_cons hc.gap_blank c.quote.not_isBlankByte]
    have hmark : after.dropWhile isBlankByte =
        c.quote.toByte :: (c.body ++ c.quote.toByte :: rest) := by
      rw [hparts, Import.dropWhile_append_cons hc.gap_blank c.quote.not_isBlankByte]
    rw [hgap, hmark]
    refine ⟨followsWord_eq_false_iff.2 hc.word, hc.gap_ne_nil, c.quote,
      ⟨_, rfl, Quote.ofByte?_eq_some_iff.2 rfl⟩, c.body.length,
      closingQuote?_eq_some_iff.2 ⟨c.body, rest, rfl, hc.body_bytes, rfl⟩, ?_, ?_⟩
    · exact mt List.length_eq_zero_iff.1 hc.body_ne_nil
    · rw [List.tail_cons, List.take_left]

/-! ## Matches -/

/-- A statement as a match. -/
def Located.toMatch (l : Located) : Match :=
  { kind := l.statement.kind, quote := l.statement.quote, start := l.start, stop := l.stop,
    bodyStart := l.bodyStart, bodyStop := l.bodyStop, body := l.statement.body,
    form := l.statement.form }

variable {token text : List Char} {l l' : Located} {c : Candidate} {m : Match}

/-- The specifier of what stands at an offset is cut out of the text. -/
theorem bytes_between_of_stands (h : c.toBytes <+: (bytes text).drop c.start) :
    bytes (between c.bodyStart c.bodyStop text) = c.body := by
  obtain ⟨front, body, back, rfl, hstart, hstop, hbody⟩ := exists_body_of_stands h
  rw [hstart, hstop, between_append, hbody]

theorem match?_of_mem_openings (h : l ∈ openings token none 0 text) :
    l.candidate.match? token text = some l.toMatch := by
  have hbody : between l.candidate.bodyStart l.candidate.bodyStop text = l.statement.body :=
    bytes_inj.1 (bytes_between_of_stands (fits_of_mem_openings h).stands)
  obtain ⟨-, -, -, -, -, hl⟩ := mem_openings_iff.1 h
  rw [Candidate.match?, hbody, hl.form_eq, Option.map_some, l.stop_candidate,
    l.bodyStart_candidate, l.bodyStop_candidate]
  rfl

/-- What passes the check, and has a form, is read at the character at which it starts. -/
theorem exists_opening_of_match? (hc : c.Shaped (bytes text)) (h : c.match? token text = some m) :
    ∃ l ∈ openings token none 0 text, l.candidate = c ∧ l.toMatch = m := by
  obtain ⟨form, hform, -⟩ := Option.map_eq_some_iff.1 h
  have hfits : c.Fits (bytes token) (bytes text) := by
    refine ⟨hc, ?_⟩
    rw [← bytes_between_of_stands hc.stands]
    exact hasForm_bytes_iff.2 ⟨form, Form.ofBody?_eq_some_iff.1 hform⟩
  obtain ⟨l, hl, rfl⟩ := exists_opening_of_fits hfits
  exact ⟨l, hl, rfl, Option.some.inj ((match?_of_mem_openings hl).symm.trans h)⟩

theorem mem_matchesOf_iff {kind : ImportKind} :
    m ∈ matchesOf token text kind ↔
      ∃ l ∈ openings token none 0 text, l.statement.kind = kind ∧ l.toMatch = m := by
  simp only [matchesOf, List.mem_filterMap, mem_findAll_iff, Option.bind_eq_some_iff]
  constructor
  · rintro ⟨start, hkeyword, c, hc, hm⟩
    obtain ⟨rfl, -, hshaped⟩ := (candidateAt?_eq_some_iff hkeyword).1 hc
    obtain ⟨l, hl, rfl, rfl⟩ := exists_opening_of_match? hshaped hm
    exact ⟨l, hl, rfl, rfl⟩
  · rintro ⟨l, hl, rfl, rfl⟩
    have hfits := fits_of_mem_openings hl
    have hkeyword : bytes l.statement.kind.keyword <+: (bytes text).drop l.start :=
      (List.prefix_append _ _).trans hfits.stands
    exact ⟨l.start, hkeyword, l.candidate,
      (candidateAt?_eq_some_iff hkeyword).2 ⟨rfl, rfl, hfits.toShaped⟩, match?_of_mem_openings hl⟩

/-! ## Sorting -/

/-- At most one statement is read at an offset. -/
theorem eq_of_start_eq (h : l ∈ openings token none 0 text) (h' : l' ∈ openings token none 0 text)
    (hstart : l.start = l'.start) : l = l' := by
  have hstarts : ((openings token none 0 text).map Located.start).Nodup :=
    List.pairwise_map.2 ((pairwise_openings token none 0 text).imp fun hlt => Nat.ne_of_lt hlt)
  exact List.inj_on_of_nodup_map hstarts h h' hstart

theorem start_of_candidateAt? {text : List UInt8} {kind : ImportKind} {start : Nat}
    (h : candidateAt? text kind start = some c) : c.start = start := by
  simp only [candidateAt?, Option.bind_eq_bind, Option.bind_eq_some_iff, Option.pure_def,
    Option.some.injEq] at h
  obtain ⟨-, -, -, -, -, -, -, -, -, -, rfl⟩ := h
  rfl

theorem start_of_match? (h : c.match? token text = some m) : m.start = c.start := by
  obtain ⟨form, -, rfl⟩ := Option.map_eq_some_iff.1 h
  rfl

theorem nodup_matchesOf (token text : List Char) (kind : ImportKind) :
    (matchesOf token text kind).Nodup := by
  have hstart (start : Nat) (m : Match)
      (h : (candidateAt? (bytes text) kind start).bind (Candidate.match? token text) = some m) :
      m.start = start := by
    obtain ⟨c, hc, hm⟩ := Option.bind_eq_some_iff.1 h
    rw [start_of_match? hm, start_of_candidateAt? hc]
  refine List.Nodup.filterMap ?_ ((pairwise_findAll _ 0 0 _).1.imp fun hlt => Nat.ne_of_lt hlt)
  intro start start' m h h'
  exact (hstart start m h).symm.trans (hstart start' m h')

/-- The matches for all keywords are what is read at the characters of the text. -/
theorem flatMap_matchesOf_perm (token text : List Char) :
    (ImportKind.all.flatMap (matchesOf token text)).Perm
      ((openings token none 0 text).map Located.toMatch) := by
  refine (List.perm_ext_iff_of_nodup ?_ ?_).2 ?_
  · refine List.nodup_flatMap.2 ⟨fun kind _ => nodup_matchesOf token text kind, ?_⟩
    refine List.Pairwise.imp ?_ (by decide : ImportKind.all.Pairwise (· ≠ ·))
    intro kind kind' hne m hm hm'
    obtain ⟨l, -, rfl, rfl⟩ := mem_matchesOf_iff.1 hm
    obtain ⟨l', -, rfl, hmatch⟩ := mem_matchesOf_iff.1 hm'
    exact hne (congrArg Match.kind hmatch.symm)
  · refine List.pairwise_map.2 ((pairwise_openings token none 0 text).imp ?_)
    intro l l' hlt hmatch
    exact Nat.ne_of_lt hlt (congrArg Match.start hmatch)
  · intro m
    have hkind (kind : ImportKind) : kind ∈ ImportKind.all := by
      cases kind <;> decide
    simp [mem_matchesOf_iff, hkind]

/-- Sorted by where they start, they are in the order in which they are read. -/
theorem mergeSort_matchesOf (token text : List Char) :
    ((ImportKind.all.flatMap (matchesOf token text)).mergeSort fun m n => m.start ≤ n.start) =
      (openings token none 0 text).map Located.toMatch := by
  have hperm := (List.mergeSort_perm (ImportKind.all.flatMap (matchesOf token text))
    fun m n => m.start ≤ n.start).trans (flatMap_matchesOf_perm token text)
  have hsorted : ((ImportKind.all.flatMap (matchesOf token text)).mergeSort
      fun m n => m.start ≤ n.start).Pairwise fun m n => m.start ≤ n.start := by
    refine List.Pairwise.imp of_decide_eq_true (List.pairwise_mergeSort ?_ ?_ _)
    · intro m n k hmn hnk
      exact decide_eq_true (Nat.le_trans (of_decide_eq_true hmn) (of_decide_eq_true hnk))
    · intro m n
      simpa using Nat.le_total m.start n.start
  have hread : ((openings token none 0 text).map Located.toMatch).Pairwise
      fun m n => m.start ≤ n.start :=
    List.pairwise_map.2 ((pairwise_openings token none 0 text).imp Nat.le_of_lt)
  refine List.Perm.eq_of_pairwise ?_ hsorted hread hperm
  intro m n hm hn hle hge
  obtain ⟨l, hl, rfl⟩ := List.mem_map.1 (hperm.mem_iff.1 hm)
  obtain ⟨l', hl', rfl⟩ := List.mem_map.1 hn
  rw [eq_of_start_eq hl hl' (Nat.le_antisymm hle hge)]

/-! ## Scanning -/

theorem retain_map_toMatch (n : Nat) (ls : List Located) :
    retain n (ls.map Located.toMatch) = (Located.select n ls).map Located.toMatch := by
  induction ls generalizing n with
  | nil => rfl
  | cons l ls ih =>
    have hstart : l.toMatch.start = l.start := rfl
    rw [List.map_cons, retain, Located.select, hstart]
    by_cases hn : n ≤ l.start
    · rw [if_neg (Nat.not_lt.2 hn), if_pos hn, ih, List.map_cons]
      rfl
    · rw [if_pos (Nat.lt_of_not_le hn), if_neg hn, ih]

/-- What a scan finds are the statements of the text. -/
theorem scan_eq (token text : List Char) :
    scan token text = (statements token text).map Located.toMatch := by
  rw [scan, mergeSort_matchesOf, retain_map_toMatch, ← statements_eq_select]

theorem scanFor_eq (token : List Char) (d : Direction) (text : List Char) :
    scanFor token d text = (statementsFor token d text).map Located.toMatch := by
  rw [scanFor, scan_eq, List.filter_map]
  rfl

/-- A match shows a candidate: its offsets, its kind and its quote, its specifier as a text, and the
form that this text has. -/
structure Candidate.Shows (token : List Char) (c : Candidate) (m : Match) : Prop where
  kind : m.kind = c.kind
  quote : m.quote = c.quote
  start : m.start = c.start
  stop : m.stop = c.stop
  bodyStart : m.bodyStart = c.bodyStart
  bodyStop : m.bodyStop = c.bodyStop
  body : bytes m.body = c.body
  form : Form.Describes token m.body m.form

/-- For every text and every token a scan gives what one selection from left to right keeps of all
candidates.  There is at most one candidate at an offset, a candidate is kept where the last one kept
has ended or later, and each match shows the candidate that is kept, in the same order. -/
theorem scan_eq_pick (token text : List Char) : ∃ cs : List Candidate,
    (cs.Pairwise fun c d => c.start < d.start) ∧
      (∀ c, c ∈ cs ↔ c.Fits (bytes token) (bytes text)) ∧
      List.Forall₂ (Candidate.Shows token) (Candidate.pick 0 cs) (scan token text) ∧
      (scan token text).Pairwise fun m n => m.start < n.start := by
  obtain ⟨cs, hsorted, hmem, hpick, hincreasing, hshown⟩ := statements_eq_pick token text
  refine ⟨cs, hsorted, hmem, ?_, ?_⟩
  · rw [← hpick, scan_eq, List.forall₂_map_left_iff, List.forall₂_map_right_iff, List.forall₂_same]
    intro l hl
    obtain ⟨hstart, hstop, hend, hform⟩ := hshown l hl
    exact ⟨rfl, rfl, rfl, hend.symm, hstart.symm, hstop.symm, rfl, hform⟩
  · rw [scan_eq]
    exact List.pairwise_map.2 hincreasing

-- of two overlapping candidates, one for each keyword, the first one is kept
example : (scan ['@'] "from './a import './b'".toList).map (·.body) = ["./a import ".toList] := by
  cbv

end ImportPaths
