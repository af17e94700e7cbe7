import ImportPaths.Text.Basic
import Mathlib.Data.List.Infix

/-!
# The bytes of a text

A text has its bytes in UTF-8, and `utf8Size` counts them (`length_bytes`).  Two facts make it
possible to look for characters by their bytes.  A byte below 0x80 is a character of its own
(`exists_of_bytes_eq_append_cons`), and a text whose bytes come first is the front of the other one
(`exists_of_bytes_append_eq`); so a text that starts with an ASCII character is found by its bytes
(`exists_of_bytes_eq_append`).

A test on bytes `Agrees` with a test on characters when it says of each byte of a character what
the other one says of the character.

The other way round, a stretch of bytes that starts and ends between characters is cut out as a text
(`between_append`), and bytes are read as the text that has them (`decode?_encode`,
`encode_of_decode?`).
-/

namespace ImportPaths.Text

variable {s t : List Char} {c : Char} {x y : List UInt8} {b : UInt8}

@[simp] theorem bytes_nil : bytes [] = [] := rfl

@[simp] theorem bytes_cons (c : Char) (s : List Char) :
    bytes (c :: s) = String.utf8EncodeChar c ++ bytes s := rfl

@[simp] theorem bytes_append (s t : List Char) : bytes (s ++ t) = bytes s ++ bytes t :=
  List.flatMap_append

@[simp] theorem bytes_eq_nil_iff : bytes s = [] ↔ s = [] := by
  cases s <;> simp [String.utf8EncodeChar_ne_nil]

@[simp] theorem length_bytes (s : List Char) : (bytes s).length = utf8Size s := by
  induction s with
  | nil => rfl
  | cons c s ih => rw [bytes_cons, List.length_append, ih, String.length_utf8EncodeChar, utf8Size]

theorem utf8Encode_eq (s : List Char) : s.utf8Encode = (bytes s).toByteArray := rfl

/-! ## Fronts -/

/-- A text whose bytes come first is the front of the other. -/
theorem exists_of_bytes_append_eq (h : bytes s ++ y = bytes t) :
    ∃ u, t = s ++ u ∧ bytes u = y := by
  have hencode : s.utf8Encode ++ y.toByteArray = t.utf8Encode := by
    rw [utf8Encode_eq, utf8Encode_eq, ← h, List.toByteArray_append]
  obtain ⟨u, rfl⟩ := List.isPrefix_of_utf8Encode_append_eq_utf8Encode _ hencode
  refine ⟨u, rfl, ?_⟩
  rw [bytes_append] at h
  exact (List.append_cancel_left h).symm

theorem bytes_prefix_iff : bytes s <+: bytes t ↔ s <+: t := by
  constructor
  · rintro ⟨y, h⟩
    obtain ⟨u, rfl, -⟩ := exists_of_bytes_append_eq h
    exact List.prefix_append s u
  · rintro ⟨u, rfl⟩
    rw [bytes_append]
    exact List.prefix_append _ _

theorem bytes_inj : bytes s = bytes t ↔ s = t := by
  refine ⟨?_, congrArg bytes⟩
  intro h
  have hst : s <+: t := bytes_prefix_iff.1 (h ▸ List.prefix_refl _)
  have hts : t <+: s := bytes_prefix_iff.1 (h ▸ List.prefix_refl _)
  exact hst.eq_of_length (Nat.le_antisymm hst.length_le hts.length_le)

theorem dropBytes_append (s t : List Char) : dropBytes (utf8Size s) (s ++ t) = t := by
  induction s with
  | nil => rw [utf8Size, List.nil_append, dropBytes]
  | cons c s ih =>
    have hpos := c.utf8Size_pos
    rw [utf8Size, List.cons_append, dropBytes, Nat.add_sub_cancel_left, ih]
    omega

theorem takeBytes_append (s t : List Char) : takeBytes (utf8Size s) (s ++ t) = s := by
  induction s with
  | nil =>
    cases t with
    | nil => rfl
    | cons c t =>
      have hpos := c.utf8Size_pos
      rw [utf8Size, List.nil_append, takeBytes, if_neg (by omega)]
  | cons c s ih =>
    rw [utf8Size, List.cons_append, takeBytes, if_pos (Nat.le_add_right _ _),
      Nat.add_sub_cancel_left, ih]

/-- From one character to another there stands what is written between them. -/
theorem between_append (u s v : List Char) :
    between (utf8Size u) (utf8Size u + utf8Size s) (u ++ (s ++ v)) = s := by
  rw [between, Nat.add_sub_cancel_left, dropBytes_append, takeBytes_append]

/-! ## Bytes below 0x80 -/

theorem utf8EncodeChar_of_lt (h : c.toNat < 0x80) :
    String.utf8EncodeChar c = [UInt8.ofNat c.toNat] := by
  have hc : c.val.toNat ≤ 127 := Nat.le_of_lt_succ h
  rw [String.utf8EncodeChar.eq_1, if_pos hc]
  rfl

/-- A character beyond ASCII has bytes from 0x80 on only. -/
theorem le_of_mem_utf8EncodeChar (h : 0x80 ≤ c.toNat) (hb : b ∈ String.utf8EncodeChar c) :
    0x80 ≤ b.toNat := by
  have hc : ¬c.val.toNat ≤ 127 := Nat.not_le.2 h
  rw [String.utf8EncodeChar.eq_1, if_neg hc] at hb
  split at hb
  · simp only [List.mem_cons, List.not_mem_nil, or_false] at hb
    rcases hb with rfl | rfl <;> rw [UInt8.toNat_ofNat'] <;> omega
  · split at hb
    · simp only [List.mem_cons, List.not_mem_nil, or_false] at hb
      rcases hb with rfl | rfl | rfl <;> rw [UInt8.toNat_ofNat'] <;> omega
    · simp only [List.mem_cons, List.not_mem_nil, or_false] at hb
      rcases hb with rfl | rfl | rfl | rfl <;> rw [UInt8.toNat_ofNat'] <;> omega

/-- A byte below 0x80 in a text is a character, with the bytes of the text around it. -/
theorem exists_of_bytes_eq_append_cons (hb : b.toNat < 0x80) (h : bytes s = x ++ b :: y) :
    ∃ u c v, s = u ++ c :: v ∧ bytes u = x ∧ String.utf8EncodeChar c = [b] ∧ bytes v = y := by
  induction s generalizing x with
  | nil =>
    rw [bytes_nil] at h
    simp at h
  | cons c s ih =>
    rw [bytes_cons] at h
    rcases List.append_eq_append_iff.1 h with ⟨z, rfl, hz⟩ | ⟨z, hc, hz⟩
    · -- the byte stands after the first character
      obtain ⟨u, d, v, rfl, hu, hd, hv⟩ := ih hz
      exact ⟨c :: u, d, v, rfl, by rw [bytes_cons, hu], hd, hv⟩
    · cases z with
      | nil =>
        obtain ⟨u, d, v, rfl, hu, hd, hv⟩ := ih (x := []) (by simpa using hz.symm)
        exact ⟨c :: u, d, v, rfl, by simp [hu, hc], hd, hv⟩
      | cons b' z =>
        obtain ⟨rfl, rfl⟩ := List.cons.inj hz
        have hlow : c.toNat < 0x80 := by
          by_contra hhigh
          have hmem : b ∈ String.utf8EncodeChar c := by simp [hc]
          have hle := le_of_mem_utf8EncodeChar (by omega) hmem
          omega
        rw [utf8EncodeChar_of_lt hlow] at hc
        obtain ⟨rfl, hb', rfl⟩ : x = [] ∧ UInt8.ofNat c.toNat = b ∧ z = [] := by
          cases x with
          | nil => simpa [eq_comm] using hc
          | cons d x => simp at hc
        exact ⟨[], c, s, rfl, rfl, by rw [utf8EncodeChar_of_lt hlow, hb'], rfl⟩

/-- A text that starts with an ASCII character is found where its bytes stand. -/
theorem exists_of_bytes_eq_append (hc : c.toNat < 0x80) (h : bytes s = x ++ (bytes (c :: t) ++ y)) :
    ∃ u v, s = u ++ (c :: t ++ v) ∧ bytes u = x ∧ bytes v = y := by
  have hb : (UInt8.ofNat c.toNat).toNat < 0x80 := by
    rw [UInt8.toNat_ofNat']
    omega
  have hbytes : bytes (c :: t) = UInt8.ofNat c.toNat :: bytes t := by
    rw [bytes_cons, utf8EncodeChar_of_lt hc, List.singleton_append]
  rw [hbytes, List.cons_append] at h
  obtain ⟨u, d, w, rfl, rfl, hd, hw⟩ := exists_of_bytes_eq_append_cons hb h
  have hfront : bytes (c :: t) ++ y = bytes (d :: w) := by
    rw [hbytes, bytes_cons, hd, hw, List.cons_append, List.singleton_append]
  obtain ⟨v, hv, hy⟩ := exists_of_bytes_append_eq hfront
  exact ⟨u, v, by rw [hv], rfl, hy⟩

/-! ## Tests on bytes and on characters -/

/-- The byte test `q` says of every byte of a character what `p` says of the character. -/
def Agrees (p : Char → Bool) (q : UInt8 → Bool) : Prop :=
  ∀ c, ∀ b ∈ String.utf8EncodeChar c, q b = p c

/-- Tests agree when they agree on ASCII, and have one answer for all else. -/
theorem agrees_of_ascii {p : Char → Bool} {q : UInt8 → Bool} (r : Bool)
    (hlow : ∀ n < 0x80, q (UInt8.ofNat n) = p (Char.ofNat n))
    (hp : ∀ c : Char, 0x80 ≤ c.toNat → p c = r) (hq : ∀ b : UInt8, 0x80 ≤ b.toNat → q b = r) :
    Agrees p q := by
  intro c b hb
  by_cases hc : c.toNat < 0x80
  · rw [utf8EncodeChar_of_lt hc, List.mem_singleton] at hb
    rw [hb, hlow _ hc, Char.ofNat_toNat]
  · rw [hp c (by omega), hq b (le_of_mem_utf8EncodeChar (by omega) hb)]

theorem Agrees.forall_mem_bytes_iff {p : Char → Bool} {q : UInt8 → Bool} (h : Agrees p q) :
    (∀ b ∈ bytes s, q b = true) ↔ ∀ c ∈ s, p c = true := by
  constructor
  · intro hs c hc
    obtain ⟨b, hb⟩ := List.exists_mem_of_ne_nil _ (String.utf8EncodeChar_ne_nil (c := c))
    rw [← h c b hb]
    exact hs b (List.mem_flatMap.2 ⟨c, hc, hb⟩)
  · intro hs b hb
    obtain ⟨c, hc, hb⟩ := List.mem_flatMap.1 hb
    rw [h c b hb]
    exact hs c hc

end ImportPaths.Text

namespace ImportPaths

/-! ## Reading bytes -/

/-- The bytes of a text. -/
def encode (text : List Char) : ByteArray := (String.ofList text).toUTF8

@[simp] theorem decode?_encode (text : List Char) : decode? (encode text) = some text := by
  have hread : String.fromUTF8? (String.ofList text).toUTF8 = some (String.ofList text) := by
    simp only [String.fromUTF8?, String.toUTF8_eq_toByteArray,
      dif_pos (String.ofList text).isValidUTF8]
    rfl
  rw [decode?, encode, hread, Option.map_some, String.toList_ofList]

theorem encode_injective : Function.Injective encode := by
  intro text text' h
  have hread := congrArg decode? h
  rw [decode?_encode, decode?_encode] at hread
  exact Option.some.inj hread

theorem encode_of_decode? {bytes : ByteArray} {text : List Char} (h : decode? bytes = some text) :
    encode text = bytes := by
  obtain ⟨s, hs, rfl⟩ := Option.map_eq_some_iff.1 h
  rw [encode, String.ofList_toList]
  unfold String.fromUTF8? at hs
  split at hs
  · cases hs
    rfl
  · cases hs

end ImportPaths
