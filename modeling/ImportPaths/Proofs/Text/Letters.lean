import ImportPaths.Proofs.Path.Components
import ImportPaths.Proofs.Results
import ImportPaths.Proofs.Text.Bytes
import ImportPaths.Specifier.System

/-!
# Texts in letters

A text is put into a path by its bytes, each written as a letter.  That loses nothing
(`letters_inj`) and moves no slash: the segments of a text in letters are the letters of its segments
(`splitOn_letters`).  Letters are read again exactly when they are those of a
text (`ofLetters?_eq_some_iff`), and where they stand for names with slashes between them, each
name is read on its own (`exists_of_letters_eq_joinSegments`).
-/

namespace ImportPaths

/-! ## Bytes as letters -/

theorem toNat_letter (b : UInt8) : (letter b).toNat = b.toNat := by
  have hb := b.toNat_lt
  have hvalid : b.toNat.isValidChar := Or.inl (by omega)
  rw [letter, Char.ofNat, dif_pos hvalid]
  rfl

theorem letter_injective : Function.Injective letter := by
  intro b b' h
  have hnat := congrArg Char.toNat h
  rw [toNat_letter, toNat_letter] at hnat
  exact UInt8.toNat_inj.1 hnat

theorem byte?_eq_some_iff {c : Char} {b : UInt8} : byte? c = some b ↔ c = letter b := by
  rw [byte?]
  constructor
  · intro h
    split at h
    · rename_i hc
      obtain rfl := Option.some.inj h
      rw [letter, UInt8.toNat_ofNat', Nat.mod_eq_of_lt hc, Char.ofNat_toNat]
    · cases h
  · rintro rfl
    rw [toNat_letter, if_pos b.toNat_lt, UInt8.ofNat_toNat]

/-- Bytes stand for the text that has them. -/
theorem decode?_eq_some_iff {bs : List UInt8} {s : List Char} :
    decode? bs.toByteArray = some s ↔ bs = Text.bytes s := by
  constructor
  · intro h
    have hbytes := congrArg (fun a => a.data.toList) (encode_of_decode? h)
    rw [List.toList_data_toByteArray] at hbytes
    rw [← hbytes, encode, String.toUTF8_eq_toByteArray, String.toByteArray_ofList, Text.utf8Encode_eq,
      List.toList_data_toByteArray]
  · rintro rfl
    rw [← Text.utf8Encode_eq, ← String.toByteArray_ofList]
    exact decode?_encode s

namespace Text

open ImportPaths.Path

variable {s t l : List Char} {names : List Segment}

/-! ## Letters of a text -/

@[simp] theorem letters_nil : letters [] = [] := rfl

@[simp] theorem letters_append (s t : List Char) : letters (s ++ t) = letters s ++ letters t := by
  rw [letters, bytes_append, List.map_append]
  rfl

theorem letters_inj : letters s = letters t ↔ s = t := by
  rw [letters, letters, List.map_inj_right fun _ _ h => letter_injective h, bytes_inj]

@[simp] theorem letters_eq_nil_iff : letters s = [] ↔ s = [] := by
  exact letters_inj (t := [])

theorem letters_prefix_iff : letters s <+: letters t ↔ s <+: t := by
  rw [letters, letters, List.prefix_map_iff_of_injective letter_injective, bytes_prefix_iff]

/-- Letters are read as the text that is written with them. -/
theorem ofLetters?_eq_some_iff : ofLetters? l = some s ↔ l = letters s := by
  simp only [ofLetters?, Option.bind_eq_some_iff, mapM_eq_some_iff_eq_map byte?_eq_some_iff,
    decode?_eq_some_iff, exists_eq_right]
  rfl

/-! ## Slashes -/

theorem slash_mem_letters_iff : '/' ∈ letters s ↔ '/' ∈ s := by
  have hagrees : Agrees (· != '/') (· != 0x2F) := by
    refine agrees_of_ascii true (by decide) ?_ ?_
    · intro c hc
      rw [bne_iff_ne]
      rintro rfl
      exact absurd hc (by decide)
    · intro b hb
      rw [bne_iff_ne]
      rintro rfl
      exact absurd hb (by decide)
  have hnot : '/' ∉ letters s ↔ '/' ∉ s := by
    have hbytes : (0x2F : UInt8) ∉ bytes s ↔ '/' ∉ s := by
      simpa [List.forall_mem_ne'] using hagrees.forall_mem_bytes_iff (s := s)
    rw [← hbytes, letters]
    exact not_congr (List.mem_map_of_injective letter_injective (a := 0x2F))
  exact not_iff_not.1 hnot

theorem letters_joinSegments (ss : List (List Char)) :
    letters (joinSegments ss) = joinSegments (ss.map letters) := by
  have hslash : letters ['/'] = ['/'] := by decide
  induction ss with
  | nil => rfl
  | cons s ss ih =>
    cases ss with
    | nil => simp [joinSegments]
    | cons t ss =>
      rw [joinSegments, List.intercalate_cons_cons, letters_append, letters_append, hslash,
        ← joinSegments, ih, List.map_cons, List.map_cons, joinSegments, joinSegments,
        List.map_cons, List.intercalate_cons_cons]

/-- A text in letters has its slashes where it has them. -/
theorem splitOn_letters (s : List Char) :
    (letters s).splitOn '/' = (s.splitOn '/').map letters := by
  have hslash : ∀ t ∈ (s.splitOn '/').map letters, '/' ∉ t := by
    refine List.forall_mem_map.2 ?_
    intro t ht
    exact mt slash_mem_letters_iff.1 (no_slash_of_mem_splitOn ht)
  have hne : (s.splitOn '/').map letters ≠ [] := by
    simp
  have hjoin : letters s = joinSegments ((s.splitOn '/').map letters) := by
    rw [← letters_joinSegments, joinSegments, List.intercalate_splitOn]
  rw [hjoin]
  exact List.splitOn_intercalate '/' hslash hne

/-- Names with slashes between them are the letters of a text only when each of them is. -/
theorem exists_of_letters_eq_joinSegments (hnames : ∀ t ∈ names, IsName t)
    (h : letters s = joinSegments names) :
    ∃ ss : List (List Char), s = joinSegments ss ∧ names = ss.map letters := by
  cases names with
  | nil => exact ⟨[], letters_eq_nil_iff.1 h, rfl⟩
  | cons t names =>
    refine ⟨s.splitOn '/', (List.intercalate_splitOn '/').symm, ?_⟩
    have hslash : ∀ u ∈ t :: names, '/' ∉ u := fun u hu => (hnames u hu).no_slash
    rw [← splitOn_letters, h]
    exact (List.splitOn_intercalate '/' hslash (List.cons_ne_nil t names)).symm

end Text

end ImportPaths
