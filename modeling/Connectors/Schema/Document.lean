import Connectors.Json.Data
import Connectors.Schema.Basic

/-!
# Schema documents

A schema is exchanged as a JSON document. `Draft.datum` writes one, and `Draft.ofDocument?` reads
one; `Schema.ofText` goes on to check what was read.

A document is an object, or an array of its values in the order `id`, `kind`, `title`, `options`.
Members that the document does not know are passed over, and a member that it does know stands at
most once. An option is always an object, whose `type` decides which further members it needs. The
members of an option must be well formed even where they are not used.
-/

set_option autoImplicit false
set_option relaxedAutoImplicit false

namespace Connectors

/-! ### Writing -/

/-- The member of an optional value. -/
def optionalField (name : String) : Option String → List (String × Datum)
  | none => []
  | some value => [(name, .text value)]

/-- The members that tell the kind of an option. -/
def OptionKind.fields (kind : OptionKind) : List (String × Datum) :=
  ("type", .text kind.name) ::
    match kind with
    | enum values => [("values", .list (values.map .text))]
    | object typeName => [("typeName", .text typeName)]
    | _ => []

/-- The document of an option. -/
def OptionSpec.datum (spec : OptionSpec) : Datum :=
  .table (Fields.ofList
    ([("name", .text spec.name), ("required", .bool spec.required),
        ("deprecated", .bool spec.deprecated), ("secret", .bool spec.secret),
        ("autowired", .bool spec.autowired)]
      ++ spec.kind.fields ++ optionalField "defaultValue" spec.fallback
      ++ optionalField "description" spec.description))

/-- The document of a draft. -/
def Draft.datum (draft : Draft) : Datum :=
  .table (Fields.ofList
    ([("id", .text draft.id), ("kind", .text draft.kind.name)]
      ++ optionalField "title" draft.title
      ++ [("options", .list (draft.options.map OptionSpec.datum))]))

/-! ### Reading -/

namespace Json

/-- The text of a JSON value. -/
def text? : Json → Option String
  | string value => value
  | _ => none

/-- An optional text, for which `null` stands when it is absent. -/
def optionalText? : Json → Option (Option String)
  | null => some none
  | string (some value) => some (some value)
  | _ => none

/-- A truth value. -/
def bool? : Json → Option Bool
  | bool value => some value
  | _ => none

/-- The members of an object whose names all name characters. -/
def members? : List (Option String × Json) → Option (List (String × Json))
  | [] => some []
  | (name, value) :: rest =>
    match name, members? rest with
    | some name, some rest => some ((name, value) :: rest)
    | _, _ => none

/-- Reads the only member of a name. The answer is `absent` if there is none, and there is no answer
if there are several. -/
def only? {α : Type} (members : List (String × Json)) (name : String) (absent : Option α)
    (read : Json → Option α) : Option α :=
  match members.filter (·.1 = name) with
  | [] => absent
  | [(_, value)] => read value
  | _ => none

/-- Reads an item of an array by its position, with an answer for an array that is too short. -/
def item? {α : Type} (items : List Json) (position : Nat) (absent : Option α)
    (read : Json → Option α) : Option α :=
  match items[position]? with
  | none => absent
  | some value => read value

end Json

/-- The category that a JSON value names: its name, or an object with the name for its only member
and nothing in it. -/
def ComponentKind.ofJson? : Json → Option ComponentKind
  | .string (some name) => ofName? name
  | .object [(some name, .null)] => ofName? name
  | _ => none

/-- The texts of a list. -/
def Datum.texts? : Datum → Option (List String)
  | list items => items.mapM fun item ↦
    match item with
    | text value => some value
    | _ => none
  | _ => none

/-- The kind that the members of an option tell. Kinds may also be given by their number. -/
def OptionKind.ofFields? (fields : List (String × Datum)) : Option OptionKind :=
  let only (name : String) : Option Datum :=
    match fields.filter (·.1 = name) with
    | [(_, value)] => some value
    | _ => none
  let names := ["bool", "int", "long", "string", "list", "enum", "object"]
  let kind : Option String :=
    match only "type" with
    | some (.text name) => some name
    | some (.int number) => if 0 ≤ number then names[number.toNat]? else none
    | _ => none
  match kind with
  | some "bool" => some bool
  | some "int" => some int
  | some "long" => some long
  | some "string" => some string
  | some "list" => some list
  | some "enum" => ((only "values").bind Datum.texts?).map enum
  | some "object" =>
    match only "typeName" with
    | some (.text typeName) => some (object typeName)
    | _ => none
  | _ => none

/-- The members of an option other than those that tell its kind. -/
def OptionSpec.memberNames : List String :=
  ["name", "defaultValue", "required", "deprecated", "secret", "autowired", "description"]

/-- Reads an option. Its other members may nest no deeper than `depth`. -/
def OptionSpec.ofJson? (depth : Nat) : Json → Option OptionSpec
  | .object written => do
    let members ← Json.members? written
    let others ← (members.filter fun member ↦ !memberNames.contains member.1).mapM fun member ↦
      (member.2.datumWithin? depth).map fun value ↦ (member.1, value)
    let name ← Json.only? members "name" none Json.text?
    let kind ← OptionKind.ofFields? others
    let fallback ← Json.only? members "defaultValue" (some none) Json.optionalText?
    let required ← Json.only? members "required" (some false) Json.bool?
    let deprecated ← Json.only? members "deprecated" (some false) Json.bool?
    let secret ← Json.only? members "secret" (some false) Json.bool?
    let autowired ← Json.only? members "autowired" (some false) Json.bool?
    let description ← Json.only? members "description" (some none) Json.optionalText?
    return { name, kind, fallback, required, deprecated, secret, autowired, description }
  | _ => none

/-- Reads a list of options. -/
def OptionSpec.listOfJson? (depth : Nat) : Json → Option (List OptionSpec)
  | .array items => items.mapM (ofJson? (depth - 2))
  | _ => none

/-- Reads a schema document, which may nest no deeper than `depth`. -/
def Draft.ofDocument? (depth : Nat) : Json → Option Draft
  | .object written => do
    let members ← Json.members? written
    let id ← Json.only? members "id" none Json.text?
    let kind ← Json.only? members "kind" (some .component) ComponentKind.ofJson?
    let title ← Json.only? members "title" (some none) Json.optionalText?
    let options ← Json.only? members "options" (some []) (OptionSpec.listOfJson? (depth - 1))
    return { id, kind, title, options }
  | .array items => do
    let id ← Json.item? items 0 none Json.text?
    let kind ← Json.item? items 1 (some .component) ComponentKind.ofJson?
    let title ← Json.item? items 2 (some none) Json.optionalText?
    let options ← Json.item? items 3 (some []) (OptionSpec.listOfJson? (depth - 1))
    if items.length ≤ 4 then return { id, kind, title, options } else none
  | _ => none

/-- Reads and checks a schema document. -/
def Schema.ofText (text : String) : Except SchemaError Schema :=
  match (Json.parse? text).bind (Draft.ofDocument? Json.depthLimit) with
  | none => .error .invalidDocument
  | some draft => draft.build

end Connectors
