import ImportPaths.Json.Value

/-!
# Values before their type is known

What a layer of the configuration says about a field, before it is known whether it is of the right
type: a text, a list, or anything else.
-/

namespace ImportPaths

inductive Datum where
  | text (s : List Char)
  | list (items : List Datum)
  /-- A value that fits no field. -/
  | other
deriving Inhabited

namespace Datum

def text? : Datum → Option (List Char)
  | .text s => some s
  | _ => none

/-- The texts of a list of texts. -/
def texts? : Datum → Option (List (List Char))
  | .list items => items.mapM text?
  | _ => none

mutual

/-- What a JSON value says. -/
def ofJson : Json.Value → Datum
  | .string s => .text s
  | .array items => .list (ofJsonItems items)
  | .null | .bool _ | .number _ | .object _ => .other

def ofJsonItems : List Json.Value → List Datum
  | [] => []
  | v :: vs => ofJson v :: ofJsonItems vs

end

end Datum

end ImportPaths
