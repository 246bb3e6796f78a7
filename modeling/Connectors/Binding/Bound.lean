import Connectors.Binding.Error
import Connectors.Fields
import Connectors.Schema.Basic

/-!
# Bound configurations

A `Bound` is the answer of binding: a schema with one place for each of its options, which holds the
option's value or nothing. Values are read by any spelling of the option's name (`Bound.get?`) and,
through the typed readers, only as what they are.

`Bound.properties` writes the values back as text. `Bound.redactedProperties` and `Bound.describe`
do so with the mark for secrets in place of every secret value.
-/

set_option autoImplicit false
set_option relaxedAutoImplicit false

namespace Connectors

/-- The values of a component's options. -/
structure Bound where
  /-- The schema the values belong to. -/
  schema : Schema
  /-- For each option of the schema in turn, its value if it has one. -/
  values : List (Option OptionValue)
deriving DecidableEq

namespace Bound

/-- The id of the component. -/
def component (bound : Bound) : String :=
  bound.schema.id

/-- The value of the option that a name leads to. -/
def get? (bound : Bound) (name : String) : Option OptionValue :=
  (bound.schema.indexOf? name).bind fun index ↦ bound.values[index]?.join

/-- Whether the option that a name leads to has a value. -/
def contains (bound : Bound) (name : String) : Bool :=
  (bound.get? name).isSome

/-- The options that have a value, with it. -/
def present (bound : Bound) : List (OptionSpec × OptionValue) :=
  (bound.schema.options.zip bound.values).filterMap fun (spec, value) ↦
    value.map fun value ↦ (spec, value)

/-- How many options have a value. -/
def size (bound : Bound) : Nat :=
  (bound.values.filter (·.isSome)).length

/-! ### Typed readers -/

/-- The value of an option that holds a truth value. -/
def bool? (bound : Bound) (name : String) : Option Bool :=
  match bound.get? name with
  | some (.bool value) => some value
  | _ => none

/-- The value of an option that holds an integer of 32 bits. -/
def int? (bound : Bound) (name : String) : Option Int :=
  match bound.get? name with
  | some (.int value) => some value
  | _ => none

/-- The value of an option that holds an integer of 64 bits. -/
def long? (bound : Bound) (name : String) : Option Int :=
  match bound.get? name with
  | some (.long value) => some value
  | _ => none

/-- The value of an option that holds a text. -/
def string? (bound : Bound) (name : String) : Option String :=
  match bound.get? name with
  | some (.string value) => some value
  | _ => none

/-- The value of an option that holds a constant. -/
def enum? (bound : Bound) (name : String) : Option String :=
  match bound.get? name with
  | some (.enum value) => some value
  | _ => none

/-- The value of an option that holds a list. -/
def list? (bound : Bound) (name : String) : Option (List String) :=
  match bound.get? name with
  | some (.list items) => some items
  | _ => none

/-- The value of an option that holds a constant, as what `read` makes of it. A constant that `read`
refuses is an error, which quotes the name as it was given. -/
def parseEnum {α : Type} (read : String → Option α) (bound : Bound) (name : String) :
    Except BindError (Option α) :=
  match bound.enum? name with
  | none => .ok none
  | some constant =>
    match read constant with
    | some value => .ok (some value)
    | none =>
      let allowed :=
        match (bound.schema.option? name).map OptionSpec.kind with
        | some (.enum values) => values
        | _ => []
      .error (.invalidEnumValue bound.component name constant allowed)

/-- The object of an option, if it is of a concrete type. -/
def object? (concreteType : String) (bound : Bound) (name : String) : Option ObjectRef :=
  match bound.get? name with
  | some (.object reference) =>
    if reference.concreteType = concreteType then some reference else none
  | _ => none

/-- The object of an option, which has to be of a concrete type. -/
def requireObject (concreteType : String) (bound : Bound) (name : String) :
    Except BindError (Option ObjectRef) :=
  match bound.get? name with
  | some (.object reference) =>
    if reference.concreteType = concreteType then .ok (some reference)
    else .error (.typeCoercion bound.component name ("<" ++ reference.concreteType ++ ">")
      (.object concreteType))
  | _ => .ok none

/-! ### Writing -/

/-- The text of every value that has one, by the declared name of its option. -/
def properties (bound : Bound) : Fields String :=
  Fields.ofList (bound.present.filterMap fun (spec, value) ↦
    value.text?.map fun text ↦ (spec.name, text))

/-- The text of every value, with the mark for secrets in place of each secret one. -/
def redactedProperties (bound : Bound) : Fields String :=
  Fields.ofList (bound.present.filterMap fun (spec, value) ↦
    (if spec.secret then some redacted else value.text?).map fun text ↦ (spec.name, text))

/-- The diagnostic form of a configuration, without its secrets. -/
def describe (bound : Bound) : String :=
  "\x7b" ++ Text.join ", " (bound.present.map fun (spec, value) ↦
    Text.quote spec.name ++ ": " ++ if spec.secret then redacted else value.describe) ++ "\x7d"

end Bound

/-- The error of a component that needs an option which its schema leaves open. -/
def Bound.missing (bound : Bound) (option : String) : BindError :=
  .missingRequired bound.component option

end Connectors
