/-!
# JSON values

Objects keep their members in the order in which they were written, and keep a member that was
written twice: what to do about it is for the reader of the value to say.  Numbers are kept as they
were written; nothing here calculates with them.
-/

namespace ImportPaths.Json

inductive Value where
  | null
  | bool (b : Bool)
  | number (literal : List Char)
  | string (s : List Char)
  | array (items : List Value)
  | object (members : List (List Char × Value))
deriving Inhabited

namespace Value

/-- The text of a string value. -/
def string? : Value → Option (List Char)
  | .string s => some s
  | _ => none

/-- The text of a string value, or nothing for `null`. -/
def nullable? : Value → Option (Option (List Char))
  | .string s => some (some s)
  | .null => some none
  | _ => none

/-- The texts of an array of strings. -/
def strings? : Value → Option (List (List Char))
  | .array items => items.mapM string?
  | _ => none

end Value

end ImportPaths.Json
