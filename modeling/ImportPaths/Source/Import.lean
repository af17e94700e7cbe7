import ImportPaths.Text.Blank
import ImportPaths.Specifier.Form

/-!
# Import statements

The part of an import or export-from statement that names a module: a keyword, blanks, and a quoted
specifier.  `Import.read?` reads one from the front of a text, and `Import.text` writes it.

* `Import.read?_eq_some`: what is read is what stood at the front, to the character.
-/

namespace ImportPaths

/-- Which keyword introduces a specifier. -/
inductive ImportKind where
  /-- `import x from '…'` and `export { x } from '…'`. -/
  | named
  /-- `import '…'`. -/
  | sideEffect
deriving DecidableEq, Inhabited

namespace ImportKind

/-- The keyword that stands before the quote. -/
def keyword : ImportKind → List Char
  | .named => ['f', 'r', 'o', 'm']
  | .sideEffect => ['i', 'm', 'p', 'o', 'r', 't']

/-- The kinds that are looked for. -/
def all : List ImportKind := [.named, .sideEffect]

end ImportKind

/-- The quote around a specifier. -/
inductive Quote where
  | single
  | double
deriving DecidableEq, Inhabited

namespace Quote

def toChar : Quote → Char
  | .single => '\''
  | .double => '"'

def ofChar? (c : Char) : Option Quote :=
  if c = '\'' then some .single else if c = '"' then some .double else none

theorem eq_toChar_of_ofChar? {c : Char} {q : Quote} (h : ofChar? c = some q) : c = q.toChar := by
  unfold ofChar? at h
  split at h
  · cases h; assumption
  · split at h
    · cases h; assumption
    · cases h

end Quote

/-- A character that may stand in a specifier: no quote and no line break. -/
def isBodyChar (c : Char) : Bool := c != '\'' && c != '"' && c != '\n' && c != '\r'

/-- A character after which no keyword starts: it would be the end of a longer word. -/
def isWordChar (c : Char) : Bool :=
  c.isAlphanum || c == '_' || c == '$' || c == '.' || decide (0x80 ≤ c.toNat)

/-- A keyword, the blanks after it, and a quoted specifier with a form. -/
structure Import where
  kind : ImportKind
  gap : List Char
  quote : Quote
  body : List Char
  form : Form
deriving DecidableEq, Inhabited

namespace Import

/-- The statement up to its specifier. -/
def opening (i : Import) : List Char := i.kind.keyword ++ (i.gap ++ [i.quote.toChar])

/-- The statement as it is written. -/
def text (i : Import) : List Char := i.opening ++ (i.body ++ [i.quote.toChar])

/-- The statement from its keyword on, and what follows it. -/
def readAfter? (token : List Char) (kind : ImportKind) (s : List Char) :
    Option (Import × List Char) :=
  match s.takeWhile Text.isAsciiBlank, s.dropWhile Text.isAsciiBlank with
  | gap, mark :: s =>
    match Quote.ofChar? mark, s.takeWhile isBodyChar, s.dropWhile isBodyChar with
    | some quote, body, closing :: rest =>
      if closing = quote.toChar ∧ gap ≠ [] ∧ body ≠ [] then
        (Form.ofBody? token body).map fun form => (⟨kind, gap, quote, body, form⟩, rest)
      else none
    | _, _, _ => none
  | _, [] => none

/-- The statement at the front of `s`, and what follows it. -/
def read? (token s : List Char) : Option (Import × List Char) :=
  ImportKind.all.findSome? fun kind => (kind.keyword.isPrefixOf? s).bind (readAfter? token kind)

/-! ## Reading loses nothing -/

theorem readAfter?_eq_some {token s rest : List Char} {kind : ImportKind} {i : Import}
    (h : readAfter? token kind s = some (i, rest)) : kind.keyword ++ s = i.text ++ rest := by
  unfold readAfter? at h
  split at h
  · rename_i mark t hs
    split at h
    · rename_i quote closing rest' hq hr
      split at h
      · rename_i hc
        obtain ⟨form, -, he⟩ := Option.map_eq_some_iff.1 h
        cases he
        have hb : t.takeWhile isBodyChar ++ quote.toChar :: rest = t := by
          rw [← hc.1, ← hr, List.takeWhile_append_dropWhile]
        have hg : s.takeWhile Text.isAsciiBlank ++ quote.toChar :: t = s := by
          rw [← Quote.eq_toChar_of_ofChar? hq, ← hs, List.takeWhile_append_dropWhile]
        simp only [text, opening, List.append_assoc, List.cons_append, List.nil_append, hb, hg]
      · cases h
    · cases h
  · cases h

/-- What is read is what stood at the front. -/
theorem read?_eq_some {token s rest : List Char} {i : Import}
    (h : read? token s = some (i, rest)) : s = i.text ++ rest := by
  obtain ⟨kind, -, hk⟩ := List.exists_of_findSome?_eq_some h
  obtain ⟨t, ht, hr⟩ := Option.bind_eq_some_iff.1 hk
  rw [← readAfter?_eq_some hr]
  exact (Text.append_eq_of_isPrefixOf? ht).symm

theorem length_text_pos (i : Import) : 0 < i.text.length := by
  simp only [text, List.length_append, List.length_singleton]
  omega

/-- A statement takes up at least one character. -/
theorem length_rest_lt {token s rest : List Char} {i : Import}
    (h : read? token s = some (i, rest)) : rest.length < s.length := by
  have := i.length_text_pos
  rw [read?_eq_some h, List.length_append]
  omega

end Import

end ImportPaths
