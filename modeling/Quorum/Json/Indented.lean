import Quorum.Json.Value

/-!
# JSON over several lines

`Json.renderIndented` writes a value with every item and every field on a line of its own, indented
by two blanks for each array or object around it. Arrays and objects without content stay on one
line.
-/

namespace Quorum

namespace Json

/-- A new line, indented to the given depth. -/
def freshLine (depth : Nat) : List Char := '\n' :: List.replicate (2 * depth) ' '

mutual

/-- Write a value that stands inside `depth` arrays and objects. -/
def renderAt (depth : Nat) : Json → List Char
  | .array (item :: rest) =>
      '[' :: renderItemsAt (depth + 1) (item :: rest) ++ freshLine depth ++ [']']
  | .object (field :: rest) =>
      '\x7b' :: renderFieldsAt (depth + 1) (field :: rest) ++ freshLine depth ++ ['\x7d']
  | .array [] => ['[', ']']
  | .object [] => ['\x7b', '\x7d']
  | .null => render .null
  | .bool value => render (.bool value)
  | .number value => render (.number value)
  | .string text => render (.string text)
  | .unusable => render .unusable

/-- Write items, each on a line of its own. -/
def renderItemsAt (depth : Nat) : List Json → List Char
  | [] => []
  | item :: rest =>
      let line := freshLine depth ++ item.renderAt depth
      match rest with
      | [] => line
      | _ => line ++ ',' :: renderItemsAt depth rest

/-- Write fields, each on a line of its own. -/
def renderFieldsAt (depth : Nat) : List (String × Json) → List Char
  | [] => []
  | (name, value) :: rest =>
      let line := freshLine depth ++ quote name ++ ':' :: ' ' :: value.renderAt depth
      match rest with
      | [] => line
      | _ => line ++ ',' :: renderFieldsAt depth rest

end

/-- Write a value over several lines. -/
def renderIndented (json : Json) : String := String.ofList (json.renderAt 0)

end Json

end Quorum
