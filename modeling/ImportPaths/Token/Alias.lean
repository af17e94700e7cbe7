import ImportPaths.Text.Blank

/-!
# Alias tokens

The short text, such as `@`, that stands for the project root at the front of a specifier.  A token
must be told apart from the marks `./` and `../`, must be one segment, and must be able to stand
between any quotes; `AliasToken.fault?` gives the first of these rules that a text breaks.
-/

namespace ImportPaths.AliasToken

/-- What can be wrong with a token. -/
inductive Fault where
  | empty
  | startsWithDot
  | hasSeparator
  | hasQuote
  | hasBlank
deriving DecidableEq, Inhabited

/-- The rule that is broken, in words. -/
def Fault.reason : Fault → String
  | .empty => "must not be empty"
  | .startsWithDot => "must not start with '.'"
  | .hasSeparator => "must not contain path separators"
  | .hasQuote => "must not contain quote characters"
  | .hasBlank => "must not contain whitespace"

def isSeparator (c : Char) : Bool := c == '/' || c == '\\'

def isQuoteMark (c : Char) : Bool := c == '\'' || c == '"' || c == '`'

/-- A token as it is kept: without blanks around it, and without the slashes at its end, so that
`@/` and `@` are the same token. -/
def normalize (token : List Char) : List Char :=
  Text.dropEndWhile (· == '/') (Text.trim token)

/-- The first rule that a token breaks. -/
def fault? (token : List Char) : Option Fault :=
  if token.isEmpty then some .empty
  else if token.head? == some '.' then some .startsWithDot
  else if token.any isSeparator then some .hasSeparator
  else if token.any isQuoteMark then some .hasQuote
  else if token.any Text.isBlank then some .hasBlank
  else none

/-- A token that breaks no rule. -/
def Valid (token : List Char) : Prop :=
  token ≠ [] ∧ token.head? ≠ some '.' ∧
    ∀ c ∈ token, isSeparator c = false ∧ isQuoteMark c = false ∧ Text.isBlank c = false

/-- No rule is broken exactly when the token is valid. -/
theorem fault?_eq_none_iff {token : List Char} : fault? token = none ↔ Valid token := by
  have any_false (p : Char → Bool) : token.any p = false ↔ ∀ c ∈ token, p c = false := by
    simp
  unfold fault? Valid
  simp only [forall_and, ← any_false]
  by_cases he : token = []
  · simp [he]
  by_cases hd : token.head? = some '.'
  · simp [he, hd]
  cases token.any isSeparator <;> cases token.any isQuoteMark <;> cases token.any Text.isBlank <;>
    simp [he, hd]

end ImportPaths.AliasToken
