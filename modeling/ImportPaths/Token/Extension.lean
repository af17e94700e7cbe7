import ImportPaths.Text.Blank
import ImportPaths.Token.Alias

/-!
# File extensions

An extension is kept without the dots and blanks a user may write around it.
-/

namespace ImportPaths.Extension

/-- An extension as it is kept: without blanks around it and without leading dots. -/
def normalize (ext : List Char) : List Char := (Text.trim ext).dropWhile (· == '.')

/-- What can be wrong with an extension. -/
inductive Fault where
  | empty
  /-- A separator or a blank in the extension that was written as `written`. -/
  | hasSeparatorOrBlank (written : List Char)
deriving DecidableEq, Inhabited

def Fault.message : Fault → String
  | .empty => "Extension cannot be empty"
  | .hasSeparatorOrBlank written =>
    "Extension cannot contain path separators or whitespace: '" ++ String.ofList written ++ "'"

/-- Reads an extension as a user writes it. -/
def parse (written : List Char) : Except Fault (List Char) :=
  let ext := normalize written
  if ext.isEmpty then .error .empty
  else if ext.any fun c => AliasToken.isSeparator c || Text.isBlank c then
    .error (.hasSeparatorOrBlank written)
  else .ok ext

end ImportPaths.Extension
