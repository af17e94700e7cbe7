import ImportPaths.Path.Basic
import ImportPaths.Proofs.Text.Bytes
import Mathlib.Data.List.Lex

/-!
# The order of paths

One path comes before another when its components do, one by one.  Two names are compared by their
bytes in UTF-8.  The entries of a directory are sorted by the characters of their names, which is
the same order: the bytes of a character carry the digits of its number, the highest first, so a
smaller number has smaller bytes (`utf8EncodeChar_append_lt`, `bytes_lt_of_le`).

This is not the order of the texts of paths: what stands in the directory `a` comes before `a.ts`,
although a slash comes after a dot.
-/

namespace ImportPaths

/-! ## The order of texts -/

namespace Text

variable {s t u : List Char} {c d : Char} {x y : List UInt8}

theorem le_cons_cons :
    le (c :: s) (d :: t) = true ↔ c.toNat < d.toNat ∨ c = d ∧ le s t = true := by
  simp [le]

theorem le_trans (hst : le s t = true) (htu : le t u = true) : le s u = true := by
  induction s generalizing t u with
  | nil => rfl
  | cons c s ih =>
    obtain _ | ⟨d, t⟩ := t
    · cases hst
    obtain _ | ⟨e, u⟩ := u
    · cases htu
    rw [le_cons_cons] at hst htu ⊢
    rcases hst with hcd | ⟨rfl, hst⟩
    · rcases htu with hde | ⟨rfl, -⟩
      · exact Or.inl (hcd.trans hde)
      · exact Or.inl hcd
    · exact htu.imp_right fun ⟨hce, htu⟩ => ⟨hce, ih hst htu⟩

theorem le_total (s t : List Char) : (le s t || le t s) = true := by
  induction s generalizing t with
  | nil => rfl
  | cons c s ih =>
    obtain _ | ⟨d, t⟩ := t
    · rfl
    have hst := ih t
    rw [Bool.or_eq_true] at hst ⊢
    rw [le_cons_cons, le_cons_cons]
    rcases Nat.lt_trichotomy c.toNat d.toNat with hlt | heq | hgt
    · exact Or.inl (Or.inl hlt)
    · obtain rfl := Char.toNat_inj.1 heq
      exact hst.imp (fun h => Or.inr ⟨rfl, h⟩) fun h => Or.inr ⟨rfl, h⟩
    · exact Or.inr (Or.inl hgt)

/-- A character with a smaller number has smaller bytes. -/
theorem utf8EncodeChar_append_lt (h : c.toNat < d.toNat) :
    String.utf8EncodeChar c ++ x < String.utf8EncodeChar d ++ y := by
  have hd : d.val.toNat < 0x110000 := by
    rcases d.valid with hd | hd
    · omega
    · exact hd.2
  have h : c.val.toNat < d.val.toNat := h
  rw [String.utf8EncodeChar.eq_1, String.utf8EncodeChar.eq_1]
  generalize c.val.toNat = m, d.val.toNat = n at h hd
  split_ifs
  all_goals
    simp (disch := omega) only [List.cons_append, List.nil_append, List.cons_lt_cons_iff,
      UInt8.lt_iff_toNat_lt, UInt8.toNat_ofNat', ← UInt8.toNat_inj, Nat.mod_eq_of_lt]
  all_goals omega

/-- The order of texts is that of their bytes. -/
theorem bytes_lt_of_le (h : le s t = true) (hne : s ≠ t) : bytes s < bytes t := by
  induction s generalizing t with
  | nil =>
    obtain ⟨b, y, hy⟩ := List.exists_cons_of_ne_nil (bytes_eq_nil_iff.not.2 hne.symm)
    rw [hy]
    exact List.nil_lt_cons b y
  | cons c s ih =>
    obtain _ | ⟨d, t⟩ := t
    · cases h
    rw [bytes_cons, bytes_cons]
    rcases le_cons_cons.1 h with hcd | ⟨rfl, hst⟩
    · exact utf8EncodeChar_append_lt hcd
    · exact List.append_left_lt (ih hst fun heq => hne (congrArg _ heq))

end Text

/-! ## The order of components -/

namespace Component

/-- The root comes first, then `.`, then `..`, and names come last. -/
def rank : Component → Nat
  | .root => 0
  | .here => 1
  | .up => 2
  | .name _ => 3

/-- Which of two components comes first, two names by their bytes. -/
def Before (c d : Component) : Prop :=
  c.rank < d.rank ∨ c.rank = d.rank ∧ Text.bytes c.segment < Text.bytes d.segment

instance : DecidableRel Before := fun _ _ => inferInstanceAs (Decidable (_ ∨ _ ∧ _))

theorem before_irrefl (c : Component) : ¬c.Before c := by
  rintro (h | ⟨-, h⟩)
  · exact Nat.lt_irrefl _ h
  · exact List.lt_irrefl _ h

theorem name_before_name {s t : Segment} (h : Text.le s t = true) (hne : s ≠ t) :
    (Component.name s).Before (.name t) :=
  Or.inr ⟨rfl, Text.bytes_lt_of_le h hne⟩

end Component

/-! ## The order of paths -/

namespace Path

/-- Which of two paths comes first, component by component. -/
def Before (p q : Path) : Prop := List.Lex Component.Before p.components q.components

instance (p q : Path) : Decidable (p.Before q) :=
  inferInstanceAs (Decidable (List.Lex _ _ _))

theorem before_irrefl (p : Path) : ¬p.Before p :=
  List.lex_irrefl Component.before_irrefl _

/-- Where two paths first differ by names, these decide which comes first. -/
theorem before_of_names {p q : Path} {front ps qs : List Component} {s t : Segment}
    (hp : p.components = front ++ .name s :: ps) (hq : q.components = front ++ .name t :: qs)
    (h : Text.le s t = true) (hne : s ≠ t) : p.Before q := by
  rw [Before, hp, hq]
  exact .append_left _ (.rel (Component.name_before_name h hne)) front

example : (Path.ofString "a/x.ts").Before (Path.ofString "a.ts") := by decide

end Path

end ImportPaths
