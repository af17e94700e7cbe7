import ImportPaths.Proofs.Results
import ImportPaths.Proofs.Specifier.Accepted
import ImportPaths.Proofs.Token.Kept

/-!
# No specifier is read in two ways

The ways to read a specifier are tried in order, but under a valid token the order is of no
importance.  A valid token does not start with a dot as both marks do (`aliasRooted?_of_mark`), and
neither mark is the front of the other (`not_upMark_of_sameMark`), so that at most one reader takes
a specifier (`countP_readers_le_one`).

Each form is then read off from the text that it writes and from no other, and what a translation
strips from a relative specifier are just the marks that the reader took away
(`stripMarks_eq_subpath`).
-/

namespace ImportPaths.Form

variable {token body : List Char} {form : Form}

/-- What a form has beside the token or the marks. -/
def subpath : Form → List Char
  | .aliasRooted subpath | .relativeUp _ subpath | .relativeSame subpath => subpath

/-! ## Readers that exclude each other -/

/-- What starts with a mark is not alias-rooted. -/
theorem aliasRooted?_of_mark (hv : AliasToken.Valid token)
    (h : upMark <+: body ∨ sameMark <+: body) : aliasRooted? token body = none := by
  rcases h with ⟨s, rfl⟩ | ⟨s, rfl⟩
  · exact aliasRooted?_climb hv 1 s
  · exact aliasRooted?_climb hv 0 s

/-- At most one reader takes a specifier. -/
theorem countP_readers_le_one (hv : AliasToken.Valid token) (body : List Char) :
    (readers token).countP (fun read => (read body).isSome) ≤ 1 := by
  have hone (r : Option Form) : (if r.isSome = true then 1 else 0) ≤ 1 := by split <;> simp
  simp only [readers, List.countP_cons, List.countP_nil, Nat.zero_add]
  by_cases hsame : sameMark <+: body
  · have halias := aliasRooted?_of_mark hv (Or.inr hsame)
    have hup := relativeUp?_eq_none_iff.2 (not_upMark_of_sameMark hsame)
    simpa [halias, hup] using hone (relativeSame? body)
  · have hnone := relativeSame?_eq_none_iff.2 hsame
    by_cases hup : upMark <+: body
    · have halias := aliasRooted?_of_mark hv (Or.inl hup)
      simpa [halias, hnone] using hone (relativeUp? body)
    · have hup := relativeUp?_eq_none_iff.2 hup
      simpa [hup, hnone] using hone (aliasRooted? token body)

/-! ## What each form is read off from -/

theorem ofBody?_eq_aliasRooted_iff {subpath : List Char} :
    ofBody? token body = some (.aliasRooted subpath) ↔
      subpath ≠ [] ∧ body = token ++ '/' :: subpath := by
  rw [ofBody?_eq_some_iff]
  constructor
  · intro h
    cases h with
    | aliasRooted hne => exact ⟨hne, rfl⟩
  · rintro ⟨hne, rfl⟩
    exact .aliasRooted hne

theorem ofBody?_eq_relativeUp_iff (hv : AliasToken.Valid token) {hops : Nat}
    {subpath : List Char} :
    ofBody? token body = some (.relativeUp hops subpath) ↔
      1 ≤ hops ∧ ¬upMark <+: subpath ∧ body = (List.replicate hops upMark).flatten ++ subpath := by
  rw [ofBody?_eq_some_iff, Nat.one_le_iff_ne_zero]
  constructor
  · intro h
    cases h with
    | relativeUp hhops hrest _ => exact ⟨hhops, hrest, rfl⟩
  · rintro ⟨hhops, hrest, rfl⟩
    have halias := aliasRooted?_of_mark hv (Or.inl (upMark_prefix_upMarks hhops subpath))
    exact .relativeUp hhops hrest (aliasRooted?_eq_none_iff.1 halias)

theorem ofBody?_eq_relativeSame_iff (hv : AliasToken.Valid token) {subpath : List Char} :
    ofBody? token body = some (.relativeSame subpath) ↔ body = sameMark ++ subpath := by
  rw [ofBody?_eq_some_iff]
  constructor
  · intro h
    cases h with
    | relativeSame _ => rfl
  · rintro rfl
    have halias := aliasRooted?_of_mark hv (Or.inr (List.prefix_append sameMark subpath))
    exact .relativeSame (aliasRooted?_eq_none_iff.1 halias)

/-- What is left of a relative specifier without its marks is its subpath. -/
theorem stripMarks_eq_subpath (h : ofBody? token body = some form)
    (hrel : form.isRelative = true) : stripMarks body = form.subpath := by
  rw [ofBody?_eq_some_iff] at h
  rw [stripMarks_eq_iff]
  cases h with
  | aliasRooted _ => cases hrel
  | relativeUp hhops hrest _ =>
    refine Or.inr ⟨?_, hrest, _, rfl⟩
    intro hsame
    exact not_upMark_of_sameMark hsame (upMark_prefix_upMarks hhops _)
  | relativeSame _ => exact Or.inl rfl

/-- Under a valid token at most one reader takes a specifier, and so they may be tried in any order.
A form is read off from exactly one text: the token, a slash and a subpath that is not empty; `../`
as often as it stands there, at least once, and the rest; `./` and the rest.  Where it is a relative
form, the rest is what a translation strips the specifier down to. -/
theorem ofBody?_unambiguous (h : AliasToken.check token = .ok ()) (body : List Char) :
    (readers token).countP (fun read => (read body).isSome) ≤ 1 ∧
    (∀ table : List (List Char → Option Form), table.Perm (readers token) →
      table.findSome? (· body) = ofBody? token body) ∧
    ((∀ subpath, ofBody? token body = some (.aliasRooted subpath) ↔
        subpath ≠ [] ∧ body = token ++ '/' :: subpath) ∧
      (∀ hops subpath, ofBody? token body = some (.relativeUp hops subpath) ↔
        1 ≤ hops ∧ ¬upMark <+: subpath ∧
          body = (List.replicate hops upMark).flatten ++ subpath) ∧
      ∀ subpath, ofBody? token body = some (.relativeSame subpath) ↔
        body = sameMark ++ subpath) ∧
    ∀ form, ofBody? token body = some form → form.isRelative = true →
      stripMarks body = form.subpath := by
  have hv := AliasToken.check_eq_ok_iff.1 h
  have hone := countP_readers_le_one hv body
  refine ⟨hone, ?_, ⟨?_, ?_, ?_⟩, ?_⟩
  · intro table hperm
    exact findSome?_eq_of_perm hperm hone
  · intro subpath
    exact ofBody?_eq_aliasRooted_iff
  · intro hops subpath
    exact ofBody?_eq_relativeUp_iff hv
  · intro subpath
    exact ofBody?_eq_relativeSame_iff hv
  · intro form hform hrel
    exact stripMarks_eq_subpath hform hrel

/-- Both marks behind each other, and a token that ends as a mark starts, read in the opposite
order. -/
theorem ofBody?_unambiguous_mixed :
    let token := "a..".toList
    let table := [relativeSame?, relativeUp?, aliasRooted? token]
    AliasToken.check token = .ok () ∧ table.Perm (readers token) ∧
      table.findSome? (· "./../x".toList) = some (.relativeSame "../x".toList) ∧
      table.findSome? (· ".././x".toList) = some (.relativeUp 1 "./x".toList) ∧
      table.findSome? (· "a../x".toList) = some (.aliasRooted "x".toList) ∧
      stripMarks ".././x".toList = "./x".toList := by
  intro token table
  have ht : AliasToken.check token = .ok () := by decide
  have hperm : table.Perm (readers token) := List.reverse_perm (readers token)
  have hread (body : List Char) : table.findSome? (· body) = ofBody? token body :=
    (ofBody?_unambiguous ht body).2.1 table hperm
  have hform : ofBody? token ".././x".toList = some (.relativeUp 1 "./x".toList) := by decide
  have hstrip := (ofBody?_unambiguous ht _).2.2.2 _ hform rfl
  rw [hread, hread, hread]
  exact ⟨ht, hperm, by decide, hform, by decide, hstrip⟩

end ImportPaths.Form
