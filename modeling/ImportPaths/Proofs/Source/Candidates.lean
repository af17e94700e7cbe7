import ImportPaths.Proofs.Source.Pieces
import ImportPaths.Proofs.Specifier.Form
import ImportPaths.Proofs.Text.Bytes
import ImportPaths.Source.Scan

/-!
# The grammar of statements, in bytes

`Candidate.Fits` is the grammar: what the bytes of a text have to be, from some offset on and just
before it, to be taken for a statement.  It looks at each offset by itself, so candidates may
overlap, and it speaks of bytes only.

The statements that can be read at the characters of a text, one after the other, are exactly its
candidates (`mem_map_candidate_openings_iff`): nothing of a text that is beyond ASCII can be taken
for a part of a keyword, a quote or a mark.  Among all candidates the statements of a text are those
that one selection from left to right keeps, each of which starts where the last one has ended or
later (`statements_eq_pick`).
-/

namespace ImportPaths

open ImportPaths.Text

/-! ## The grammar -/

namespace Candidate

/-- The keyword, the blanks, and the specifier in its quotes. -/
def toBytes (c : Candidate) : List UInt8 :=
  bytes c.kind.keyword ++ (c.gap ++ c.quote.toByte :: (c.body ++ [c.quote.toByte]))

/-- A specifier that is rooted at the token, or starts with a mark. -/
def HasForm (token body : List UInt8) : Prop :=
  (∃ subpath, subpath ≠ [] ∧ body = token ++ 0x2F :: subpath) ∨
    bytes upMark <+: body ∨ bytes sameMark <+: body

/-- What makes a stretch of the bytes `text` a keyword with a quoted specifier. -/
structure Shaped (text : List UInt8) (c : Candidate) : Prop where
  stands : c.toBytes <+: text.drop c.start
  word : ∀ n b, c.start = n + 1 → text[n]? = some b → isWordByte b = false
  gap_ne_nil : c.gap ≠ []
  gap_blank : ∀ b ∈ c.gap, isBlankByte b = true
  body_ne_nil : c.body ≠ []
  body_bytes : ∀ b ∈ c.body, isBodyByte b = true

/-- What makes a stretch of the bytes `text` a candidate. -/
structure Fits (token text : List UInt8) (c : Candidate) : Prop extends Shaped text c where
  form : HasForm token c.body

/-- The candidates that a selection from left to right keeps: those that start at `stop` or later,
where `stop` is where the last one that was kept has ended. -/
def pick (stop : Nat) : List Candidate → List Candidate
  | [] => []
  | c :: cs => if stop ≤ c.start then c :: pick c.stop cs else pick stop cs

end Candidate

/-- A statement of a text as a stretch of its bytes. -/
def Located.candidate (l : Located) : Candidate :=
  ⟨l.start, l.statement.kind, bytes l.statement.gap, l.statement.quote, bytes l.statement.body⟩

/-! ## Bytes and characters -/

theorem ne_of_ascii {c d : Char} (hc : 0x80 ≤ c.toNat) (hd : d.toNat < 0x80) : c ≠ d := by
  rintro rfl
  omega

theorem not_contains_of_ascii {bs : List UInt8} {b : UInt8} (hb : 0x80 ≤ b.toNat)
    (h : ∀ d ∈ bs, d.toNat < 0x80) : bs.contains b = false := by
  rw [List.contains_eq_mem, decide_eq_false_iff_not]
  intro hmem
  have hlow := h b hmem
  omega

theorem agrees_isAsciiBlank : Agrees isAsciiBlank isBlankByte := by
  refine agrees_of_ascii false (by decide) ?_ fun b hb => not_contains_of_ascii hb (by simp)
  intro c hc
  have h (d : Char) (hd : d.toNat < 0x80) : c ≠ d := ne_of_ascii hc hd
  simp [isAsciiBlank, h ' ' (by decide), h '\t' (by decide), h '\n' (by decide),
    h '\x0c' (by decide), h '\r' (by decide)]

theorem agrees_isBodyChar : Agrees isBodyChar isBodyByte := by
  refine agrees_of_ascii true (by decide) ?_ ?_
  · intro c hc
    have h (d : Char) (hd : d.toNat < 0x80) : c ≠ d := ne_of_ascii hc hd
    simp [isBodyChar, h '\'' (by decide), h '"' (by decide), h '\n' (by decide),
      h '\r' (by decide)]
  · intro b hb
    rw [isBodyByte, not_contains_of_ascii hb (by simp)]
    rfl

theorem agrees_isWordChar : Agrees isWordChar isWordByte := by
  refine agrees_of_ascii true (by decide) ?_ ?_
  · intro c hc
    simp [isWordChar, hc]
  · intro b hb
    simp [isWordByte, UInt8.le_iff_toNat_le, hb]

theorem Quote.utf8EncodeChar_toChar (q : Quote) : String.utf8EncodeChar q.toChar = [q.toByte] := by
  cases q <;> rfl

theorem Quote.toNat_toChar_lt (q : Quote) : q.toChar.toNat < 0x80 := by
  cases q <;> decide

/-- Every keyword starts with an ASCII letter. -/
theorem ImportKind.exists_keyword_eq_cons (kind : ImportKind) :
    ∃ c t, kind.keyword = c :: t ∧ c.toNat < 0x80 := by
  cases kind
  · exact ⟨_, _, rfl, by decide⟩
  · exact ⟨_, _, rfl, by decide⟩

/-- A specifier has a form when its bytes do. -/
theorem hasForm_bytes_iff {token body : List Char} :
    Candidate.HasForm (bytes token) (bytes body) ↔ ∃ form, Form.Describes token body form := by
  have halias : (∃ subpath, subpath ≠ [] ∧ bytes body = bytes token ++ 0x2F :: subpath) ↔
      Form.IsAliasRooted token body := by
    constructor
    · rintro ⟨subpath, hne, h⟩
      have hfront : bytes (token ++ ['/']) ++ subpath = bytes body := by
        rw [h, bytes_append, List.append_assoc]
        rfl
      obtain ⟨u, hu, rfl⟩ := exists_of_bytes_append_eq hfront
      exact ⟨u, by simpa using hne, by rw [hu, List.append_assoc, List.singleton_append]⟩
    · rintro ⟨subpath, hne, rfl⟩
      exact ⟨bytes subpath, by simpa using hne, by rw [bytes_append]; rfl⟩
  rw [Candidate.HasForm, halias, bytes_prefix_iff, bytes_prefix_iff, Form.exists_describes_iff]

/-- The byte before an offset goes on no word when the character before it goes on none. -/
theorem startsWord_getLast?_iff {u : List Char} {y : List UInt8} :
    Piece.startsWord u.getLast? = true ↔
      ∀ n b, utf8Size u = n + 1 → (bytes u ++ y)[n]? = some b → isWordByte b = false := by
  rcases List.eq_nil_or_concat u with rfl | ⟨t, d, rfl⟩
  · exact ⟨fun _ n b hn => absurd hn (by simp [utf8Size]), fun _ => rfl⟩
  · -- the byte in question is the last one of the character `d`
    obtain ⟨front, b, hd⟩ : ∃ front b, String.utf8EncodeChar d = front ++ [b] := by
      simpa [String.utf8EncodeChar_ne_nil] using List.eq_nil_or_concat (String.utf8EncodeChar d)
    have hsize : utf8Size (t.concat d) = (bytes t ++ front).length + 1 := by
      rw [← length_bytes, List.concat_eq_append, bytes_append, bytes_cons, bytes_nil, hd]
      simp [Nat.add_assoc]
    have hat : (bytes (t.concat d) ++ y)[(bytes t ++ front).length]? = some b := by
      rw [List.concat_eq_append, bytes_append, bytes_cons, bytes_nil, hd, List.append_nil,
        ← List.append_assoc, List.append_assoc, List.getElem?_append_right (Nat.le_refl _)]
      simp
    have hword : isWordByte b = isWordChar d := agrees_isWordChar d b (by simp [hd])
    have hstarts : Piece.startsWord (t.concat d).getLast? = !isWordByte b := by
      simp [hword, Piece.startsWord]
    rw [hstarts, Bool.not_eq_true']
    constructor
    · intro hb n b' hn hb'
      obtain rfl : n = (bytes t ++ front).length := by omega
      obtain rfl : b = b' := Option.some.inj (hat.symm.trans hb')
      exact hb
    · intro h
      exact h _ b hsize hat

namespace Located

/-- The bytes of a statement are those of its candidate. -/
theorem toBytes_candidate (l : Located) : l.candidate.toBytes = bytes l.statement.text := by
  simp [candidate, Candidate.toBytes, Import.text_eq, Quote.utf8EncodeChar_toChar]

theorem bodyStart_candidate (l : Located) : l.candidate.bodyStart = l.bodyStart := by
  have hopening : utf8Size l.statement.opening =
      (bytes l.candidate.kind.keyword).length + (l.candidate.gap.length + 1) := by
    rw [← length_bytes, Import.opening]
    simp [candidate, Quote.utf8EncodeChar_toChar]
  rw [Candidate.bodyStart, bodyStart, hopening, Nat.add_assoc]
  rfl

theorem bodyStop_candidate (l : Located) : l.candidate.bodyStop = l.bodyStop := by
  rw [Candidate.bodyStop, bodyStart_candidate, bodyStop, ← length_bytes]
  rfl

theorem stop_candidate (l : Located) : l.candidate.stop = l.stop := by
  rw [Candidate.stop, bodyStop_candidate, bodyStop, bodyStart, stop, Import.text, utf8Size_append,
    utf8Size_append, utf8Size, Quote.utf8Size_toChar, utf8Size]
  omega

end Located

/-! ## Statements at each character -/

/-- The statement that can be read at the front of `s`, which stands after the character `before`.
Its first byte has the offset `start`. -/
def opening? (token : List Char) (before : Option Char) (start : Nat) (s : List Char) :
    Option Located :=
  (Piece.statementAt? token before s).map fun r => ⟨start, r.1⟩

/-- The statements that can be read at the characters of `s`, whether they overlap or not. -/
def openings (token : List Char) (before : Option Char) (start : Nat) : List Char → List Located
  | [] => []
  | c :: s =>
    (opening? token before start (c :: s)).toList ++
      openings token (some c) (start + c.utf8Size) s

variable {token s text : List Char} {before : Option Char} {start : Nat} {l : Located}

theorem opening?_eq_some_iff : opening? token before start s = some l ↔
    l.start = start ∧ Piece.startsWord before = true ∧ l.statement.Legal token ∧
      ∃ v, s = l.statement.text ++ v := by
  rw [opening?, Option.map_eq_some_iff]
  constructor
  · rintro ⟨⟨i, v⟩, hread, rfl⟩
    obtain ⟨hword, hi, htext⟩ := Piece.statementAt?_eq_some_iff.1 hread
    exact ⟨rfl, hword, hi, v, htext⟩
  · rintro ⟨rfl, hword, hl, v, htext⟩
    exact ⟨(l.statement, v), Piece.statementAt?_eq_some_iff.2 ⟨hword, hl, htext⟩, rfl⟩

theorem start_of_mem_opening? (h : l ∈ (opening? token before start s).toList) :
    l.start = start :=
  (opening?_eq_some_iff.1 (Option.mem_toList.1 h)).1

theorem getLast?_cons_or (c : Char) (u : List Char) (before : Option Char) :
    (c :: u).getLast?.or before = u.getLast?.or (some c) := by
  rw [List.getLast?_cons]
  cases u.getLast? <;> rfl

/-- They are the legal statements that stand in the text at the start of a word. -/
theorem mem_openings_iff : l ∈ openings token before start s ↔
    ∃ u v, s = u ++ (l.statement.text ++ v) ∧ l.start = start + utf8Size u ∧
      Piece.startsWord (u.getLast?.or before) = true ∧ l.statement.Legal token := by
  induction s generalizing before start with
  | nil =>
    have hpos := l.statement.length_text_pos
    constructor
    · intro h
      cases h
    · rintro ⟨u, v, h, -⟩
      have hlength := congrArg List.length h
      simp only [List.length_nil, List.length_append] at hlength
      omega
  | cons c s ih =>
    rw [openings, List.mem_append, Option.mem_toList, opening?_eq_some_iff, ih]
    constructor
    · rintro (⟨hstart, hword, hl, v, htext⟩ | ⟨u, v, rfl, hstart, hword, hl⟩)
      · exact ⟨[], v, htext, hstart, hword, hl⟩
      · refine ⟨c :: u, v, rfl, ?_, ?_, hl⟩
        · rw [hstart, utf8Size, Nat.add_assoc]
        · rw [getLast?_cons_or]
          exact hword
    · rintro ⟨u, v, htext, hstart, hword, hl⟩
      cases u with
      | nil => exact Or.inl ⟨hstart, hword, hl, v, htext⟩
      | cons d u =>
        right
        obtain ⟨rfl, rfl⟩ := List.cons.inj htext
        refine ⟨u, v, rfl, ?_, ?_, hl⟩
        · rw [hstart, utf8Size, Nat.add_assoc]
        · rwa [getLast?_cons_or] at hword

/-- What is read at a character is a candidate. -/
theorem fits_of_mem_openings (h : l ∈ openings token none 0 text) :
    l.candidate.Fits (bytes token) (bytes text) := by
  obtain ⟨u, v, rfl, hstart, hword, hl⟩ := mem_openings_iff.1 h
  rw [Option.or_none] at hword
  rw [Nat.zero_add] at hstart
  have hbytes : bytes (u ++ (l.statement.text ++ v)) =
      bytes u ++ (l.candidate.toBytes ++ bytes v) := by
    rw [bytes_append, bytes_append, l.toBytes_candidate]
  refine ⟨⟨?_, ?_, ?_, ?_, ?_, ?_⟩, ?_⟩
  · rw [hbytes, List.drop_left' (by rw [length_bytes, ← hstart]; rfl)]
    exact List.prefix_append _ _
  · intro n b hn hb
    rw [hbytes] at hb
    exact startsWord_getLast?_iff.1 hword n b (hstart.symm.trans hn) hb
  · exact mt bytes_eq_nil_iff.1 hl.gap_ne_nil
  · exact agrees_isAsciiBlank.forall_mem_bytes_iff.2 hl.gap_blank
  · exact mt bytes_eq_nil_iff.1 hl.body_ne_nil
  · exact agrees_isBodyChar.forall_mem_bytes_iff.2 hl.body_chars
  · exact hasForm_bytes_iff.2 ⟨_, Form.ofBody?_eq_some_iff.1 hl.form_eq⟩

/-- A quote is found by its byte. -/
theorem Quote.exists_of_bytes_eq {q : Quote} {s : List Char} {x y : List UInt8}
    (h : bytes s = x ++ q.toByte :: y) :
    ∃ u v, s = u ++ q.toChar :: v ∧ bytes u = x ∧ bytes v = y := by
  have hquote : bytes [q.toChar] = [q.toByte] := by
    rw [bytes_cons, bytes_nil, List.append_nil, q.utf8EncodeChar_toChar]
  refine exists_of_bytes_eq_append (t := []) q.toNat_toChar_lt ?_
  rw [h, hquote, List.singleton_append]

/-- Where the bytes of a candidate stand, its parts do: none of them starts or ends inside a
character. -/
theorem exists_of_bytes_eq_toBytes {c : Candidate} {x y : List UInt8}
    (h : bytes text = x ++ (c.toBytes ++ y)) : ∃ u gap body v,
      text = u ++ (c.kind.keyword ++ (gap ++ c.quote.toChar :: (body ++ c.quote.toChar :: v))) ∧
      bytes u = x ∧ bytes gap = c.gap ∧ bytes body = c.body := by
  obtain ⟨k, w, hkeyword, hk⟩ := c.kind.exists_keyword_eq_cons
  rw [Candidate.toBytes, hkeyword, List.append_assoc] at h
  obtain ⟨u, afterKeyword, rfl, hu, hrest⟩ := exists_of_bytes_eq_append hk h
  rw [List.append_assoc, List.cons_append, List.append_assoc] at hrest
  obtain ⟨gap, afterQuote, rfl, hgap, hrest⟩ := Quote.exists_of_bytes_eq hrest
  obtain ⟨body, v, rfl, hbody, -⟩ := Quote.exists_of_bytes_eq hrest
  exact ⟨u, gap, body, v, by rw [hkeyword], hu, hgap, hbody⟩

/-- So they do where a candidate stands at its offset. -/
theorem exists_of_stands {c : Candidate} (h : c.toBytes <+: (bytes text).drop c.start) :
    ∃ u gap body v,
      text = u ++ (c.kind.keyword ++ (gap ++ c.quote.toChar :: (body ++ c.quote.toChar :: v))) ∧
      utf8Size u = c.start ∧ bytes gap = c.gap ∧ bytes body = c.body := by
  obtain ⟨y, hy⟩ := h
  have htext : bytes text = (bytes text).take c.start ++ (c.toBytes ++ y) := by
    rw [hy, List.take_append_drop]
  have hlength : c.start ≤ (bytes text).length := by
    -- past the end of the text nothing stands
    by_contra hpast
    rw [List.drop_eq_nil_of_le (by omega)] at hy
    simp [Candidate.toBytes] at hy
  obtain ⟨u, gap, body, v, heq, hu, hgap, hbody⟩ := exists_of_bytes_eq_toBytes htext
  have hstart : utf8Size u = c.start := by
    rw [← length_bytes, hu, List.length_take, Nat.min_eq_left hlength]
  exact ⟨u, gap, body, v, heq, hstart, hgap, hbody⟩

/-- The specifier of what stands at an offset is a stretch of the text. -/
theorem exists_body_of_stands {c : Candidate} (h : c.toBytes <+: (bytes text).drop c.start) :
    ∃ front body back, text = front ++ (body ++ back) ∧ c.bodyStart = utf8Size front ∧
      c.bodyStop = utf8Size front + utf8Size body ∧ bytes body = c.body := by
  obtain ⟨u, gap, body, v, htext, hstart, hgap, hbody⟩ := exists_of_stands h
  have hfront : c.bodyStart = utf8Size (u ++ (c.kind.keyword ++ (gap ++ [c.quote.toChar]))) := by
    rw [Candidate.bodyStart, ← hstart, ← hgap, length_bytes, length_bytes]
    simp only [utf8Size_append, utf8Size, Quote.utf8Size_toChar]
    omega
  refine ⟨_, body, c.quote.toChar :: v, ?_, hfront, ?_, hbody⟩
  · rw [htext]
    simp
  · rw [Candidate.bodyStop, hfront, ← hbody, length_bytes]

/-- A candidate is read at the character at which it starts. -/
theorem exists_opening_of_fits {c : Candidate} (h : c.Fits (bytes token) (bytes text)) :
    ∃ l ∈ openings token none 0 text, l.candidate = c := by
  obtain ⟨u, gap, body, v, rfl, hstart, hgap, hbody⟩ := exists_of_stands h.stands
  obtain ⟨start, kind, _, quote, _⟩ := c
  dsimp only at hstart hgap hbody
  subst hstart hgap hbody
  obtain ⟨form, hform⟩ := hasForm_bytes_iff.1 h.form
  have hl : Import.Legal token ⟨kind, gap, quote, body, form⟩ := by
    refine ⟨?_, ?_, ?_, ?_, Form.ofBody?_eq_some_iff.2 hform⟩
    · exact mt bytes_eq_nil_iff.2 h.gap_ne_nil
    · exact agrees_isAsciiBlank.forall_mem_bytes_iff.1 h.gap_blank
    · exact mt bytes_eq_nil_iff.2 h.body_ne_nil
    · exact agrees_isBodyChar.forall_mem_bytes_iff.1 h.body_bytes
  refine ⟨⟨utf8Size u, _⟩, mem_openings_iff.2 ⟨u, v, ?_, ?_, ?_, hl⟩, rfl⟩
  · simp [Import.text_eq]
  · rw [Nat.zero_add]
  · rw [Option.or_none, startsWord_getLast?_iff]
    intro n b hn hb
    rw [bytes_append] at h
    exact h.word n b hn hb

/-- The candidates of a text are what is read at its characters. -/
theorem mem_map_candidate_openings_iff {c : Candidate} :
    c ∈ (openings token none 0 text).map Located.candidate ↔ c.Fits (bytes token) (bytes text) := by
  rw [List.mem_map]
  constructor
  · rintro ⟨l, hl, rfl⟩
    exact fits_of_mem_openings hl
  · exact exists_opening_of_fits

/-! ## Selection from left to right -/

theorem le_start_of_mem_openings (h : l ∈ openings token before start s) : start ≤ l.start := by
  obtain ⟨u, v, -, hstart, -⟩ := mem_openings_iff.1 h
  omega

theorem pairwise_openings (token : List Char) (before : Option Char) (start : Nat) (s : List Char) :
    (openings token before start s).Pairwise fun l m => l.start < m.start := by
  induction s generalizing before start with
  | nil => exact List.Pairwise.nil
  | cons c s ih =>
    have hpos := c.utf8Size_pos
    rw [openings, List.pairwise_append]
    refine ⟨?_, ih _ _, ?_⟩
    · cases opening? token before start (c :: s) <;> simp
    · intro l hl m hm
      have hl := start_of_mem_opening? hl
      have hm := le_start_of_mem_openings hm
      omega

/-- What can be read in the second part of a text comes after what starts in the first part. -/
theorem exists_openings_append (token : List Char) (before : Option Char) (start : Nat)
    (u v : List Char) : ∃ ls, openings token before start (u ++ v) =
        ls ++ openings token (u.getLast?.or before) (start + utf8Size u) v ∧
      ∀ l ∈ ls, l.start < start + utf8Size u := by
  induction u generalizing before start with
  | nil => exact ⟨[], rfl, fun l hl => absurd hl List.not_mem_nil⟩
  | cons c u ih =>
    have hpos := c.utf8Size_pos
    obtain ⟨ls, hls, hlt⟩ := ih (some c) (start + c.utf8Size)
    rw [Nat.add_assoc] at hls hlt
    refine ⟨(opening? token before start (c :: u ++ v)).toList ++ ls, ?_, ?_⟩
    · rw [List.cons_append, openings, hls, getLast?_cons_or, utf8Size, List.append_assoc]
    · intro l hl
      rw [utf8Size]
      rcases List.mem_append.1 hl with hl | hl
      · have hl := start_of_mem_opening? hl
        omega
      · exact hlt l hl

/-- When a statement is read, what starts inside of it is followed by what can be read after its
closing quote. -/
theorem exists_openings_of_statementAt? {i : Import} {rest : List Char} (start : Nat)
    (h : Piece.statementAt? token before s = some (i, rest)) : ∃ ls,
      openings token before start s =
        ⟨start, i⟩ :: (ls ++ openings token (some i.quote.toChar) (start + utf8Size i.text) rest) ∧
      ∀ l ∈ ls, l.start < start + utf8Size i.text := by
  obtain ⟨hword, hi, rfl⟩ := Piece.statementAt?_eq_some_iff.1 h
  obtain ⟨c, t, ht⟩ := List.exists_cons_of_length_pos i.length_text_pos
  have hlast : t.getLast?.or (some c) = some i.quote.toChar := by
    rw [← getLast?_cons_or c t none, ← ht]
    simp [Import.text]
  have hstop : start + c.utf8Size + utf8Size t = start + utf8Size i.text := by
    rw [ht, utf8Size, Nat.add_assoc]
  obtain ⟨ls, hls, hlt⟩ := exists_openings_append token (some c) (start + c.utf8Size) t rest
  rw [hlast, hstop] at hls
  rw [hstop] at hlt
  have hopening : opening? token before start (i.text ++ rest) = some ⟨start, i⟩ :=
    opening?_eq_some_iff.2 ⟨rfl, hword, hi, rest, rfl⟩
  refine ⟨ls, ?_, hlt⟩
  have hcons : i.text ++ rest = c :: (t ++ rest) := by
    rw [ht, List.cons_append]
  rw [hcons] at hopening ⊢
  rw [openings, hopening, hls]
  rfl

namespace Located

variable {ls ms : List Located} {m n : Nat}

/-- The same selection on statements. -/
def select (stop : Nat) : List Located → List Located
  | [] => []
  | l :: ls => if stop ≤ l.start then l :: select l.stop ls else select stop ls

/-- What starts before the last statement that was kept has ended does not count. -/
theorem select_append (h : ∀ l ∈ ls, l.start < n) : select n (ls ++ ms) = select n ms := by
  induction ls with
  | nil => rfl
  | cons l ls ih =>
    have hl := h l List.mem_cons_self
    rw [List.cons_append, select, if_neg (by omega), ih fun k hk => h k (List.mem_cons_of_mem l hk)]

theorem select_congr (hm : ∀ l ∈ ls, m ≤ l.start) (hn : ∀ l ∈ ls, n ≤ l.start) :
    select m ls = select n ls := by
  cases ls with
  | nil => rfl
  | cons l ls =>
    rw [select, select, if_pos (hm l List.mem_cons_self), if_pos (hn l List.mem_cons_self)]

theorem select_sublist (n : Nat) (ls : List Located) : (select n ls).Sublist ls := by
  induction ls generalizing n with
  | nil => exact List.Sublist.refl _
  | cons l ls ih =>
    rw [select]
    split
    · exact (ih _).cons_cons l
    · exact (ih _).cons l

theorem pick_map_candidate (n : Nat) (ls : List Located) :
    Candidate.pick n (ls.map candidate) = (select n ls).map candidate := by
  induction ls generalizing n with
  | nil => rfl
  | cons l ls ih =>
    rw [List.map_cons, Candidate.pick, select, apply_ite (List.map candidate), List.map_cons,
      ih, ih, stop_candidate]
    rfl

end Located

/-- Cutting a text keeps what the selection keeps of all that can be read. -/
theorem locate_cut (token : List Char) (before : Option Char) (start : Nat) (s : List Char) :
    locate start (Piece.cut token before s) =
      Located.select start (openings token before start s) := by
  fun_induction Piece.cut token before s generalizing start with
  | case1 => rfl
  | case2 before c s i rest h ih =>
    obtain ⟨ls, hls, hlt⟩ := exists_openings_of_statementAt? start h
    have hstart : start ≤ (⟨start, i⟩ : Located).start := Nat.le_refl start
    rw [hls, Located.select, if_pos hstart, Located.stop, Located.select_append hlt, ← ih]
    rfl
  | case3 before c s h ih =>
    have hopening : opening? token before start (c :: s) = none := by
      rw [opening?, h, Option.map_none]
    rw [locate, ih, openings, hopening, Option.toList_none, List.nil_append]
    have hle : ∀ l ∈ openings token (some c) (start + c.utf8Size) s, start + c.utf8Size ≤ l.start :=
      fun l hl => le_start_of_mem_openings hl
    exact Located.select_congr hle fun l hl => Nat.le_trans (Nat.le_add_right _ _) (hle l hl)

theorem statements_eq_select (token text : List Char) :
    statements token text = Located.select 0 (openings token none 0 text) :=
  locate_cut token none 0 text

/-- The statements of a text are what one selection from left to right keeps of all candidates, and
each is given with the offsets, the parts and the form that its candidate has. -/
theorem statements_eq_pick (token text : List Char) : ∃ cs : List Candidate,
    (cs.Pairwise fun c d => c.start < d.start) ∧
      (∀ c, c ∈ cs ↔ c.Fits (bytes token) (bytes text)) ∧
      (statements token text).map Located.candidate = Candidate.pick 0 cs ∧
      ((statements token text).Pairwise fun l m => l.start < m.start) ∧
      ∀ l ∈ statements token text,
        l.candidate.bodyStart = l.bodyStart ∧ l.candidate.bodyStop = l.bodyStop ∧
          l.candidate.stop = l.stop ∧
          Form.Describes token l.statement.body l.statement.form := by
  have hsorted : ((openings token none 0 text).map Located.candidate).Pairwise
      fun c d => c.start < d.start :=
    List.pairwise_map.2 (pairwise_openings token none 0 text)
  refine ⟨_, hsorted, fun c => mem_map_candidate_openings_iff, ?_, ?_, ?_⟩
  · rw [statements_eq_select, Located.pick_map_candidate]
  · rw [statements_eq_select]
    exact (pairwise_openings token none 0 text).sublist (Located.select_sublist 0 _)
  · intro l hl
    refine ⟨l.bodyStart_candidate, l.bodyStop_candidate, l.stop_candidate, ?_⟩
    exact Form.ofBody?_eq_some_iff.1 (legal_of_mem_statements hl).form_eq

end ImportPaths
