import Connectors.Json.Data

/-!
# JSON on several lines

`Datum.jsonLines` writes every item and every field on a line of its own, two blanks further to the
right than what holds it. Without its blanks and line ends outside texts it is `Datum.json`.
-/

set_option autoImplicit false
set_option relaxedAutoImplicit false

namespace Connectors.Datum

/-- A new line with an indentation. -/
def newLine (depth : Nat) : String :=
  String.ofList ('\n' :: List.replicate (2 * depth) ' ')

mutual

/-- A value on several lines, held by `depth` lists and tables. -/
def jsonBelow (depth : Nat) : Datum → String
  | list (item :: rest) =>
    "[" ++ newLine (depth + 1) ++ jsonBelow (depth + 1) item ++ jsonItemsBelow (depth + 1) rest
      ++ newLine depth ++ "]"
  | table ((name, value) :: rest) =>
    "\x7b" ++ newLine (depth + 1) ++ jsonText name ++ ": " ++ jsonBelow (depth + 1) value
      ++ jsonFieldsBelow (depth + 1) rest ++ newLine depth ++ "\x7d"
  | value => value.json

/-- The items after the first one. -/
def jsonItemsBelow (depth : Nat) : List Datum → String
  | [] => ""
  | item :: rest => "," ++ newLine depth ++ jsonBelow depth item ++ jsonItemsBelow depth rest

/-- The fields after the first one. -/
def jsonFieldsBelow (depth : Nat) : List (String × Datum) → String
  | [] => ""
  | (name, value) :: rest =>
    "," ++ newLine depth ++ jsonText name ++ ": " ++ jsonBelow depth value
      ++ jsonFieldsBelow depth rest

end

/-- A value as JSON on several lines. -/
def jsonLines (value : Datum) : String :=
  value.jsonBelow 0

end Connectors.Datum
