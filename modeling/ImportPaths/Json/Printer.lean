import ImportPaths.Json.Quoted
import ImportPaths.Json.Value

/-!
# Writing JSON

Every item and every member stands on a line of its own, two blanks further in than what it belongs
to; an empty array or object stands on one line.
-/

namespace ImportPaths.Json

/-- The blanks in front of a line. -/
def indent (depth : Nat) : List Char := List.replicate (2 * depth) ' '

/-- Some lines between two signs. -/
def block (left right : Char) (depth : Nat) (lines : List (List Char)) : List Char :=
  if lines.isEmpty then [left, right]
  else
    left :: '\n' :: ([',', '\n'].intercalate (lines.map (indent (depth + 1) ++ ·)) ++
      '\n' :: (indent depth ++ [right]))

mutual

/-- A value, of which the first line is already indented. -/
def Value.render (depth : Nat) : Value → List Char
  | .null => "null".toList
  | .bool true => "true".toList
  | .bool false => "false".toList
  | .number literal => literal
  | .string s => quote s
  | .array items => block '[' ']' depth (renderItems (depth + 1) items)
  | .object members => block '{' '}' depth (renderMembers (depth + 1) members)

def renderItems (depth : Nat) : List Value → List (List Char)
  | [] => []
  | v :: vs => v.render depth :: renderItems depth vs

def renderMembers (depth : Nat) : List (List Char × Value) → List (List Char)
  | [] => []
  | (name, v) :: ms => (quote name ++ ':' :: ' ' :: v.render depth) :: renderMembers depth ms

end

/-- The text of a value. -/
def Value.pretty (v : Value) : List Char := v.render 0

end ImportPaths.Json
