import Connectors.Binding.Binder
import Connectors.Schema.Catalog

/-!
# Registries

A registry holds the components an application knows: for each its schema and, of any type `φ`, what
makes its endpoints. A component is found by any spelling of its id, so no two ids of a registry
have one normal form, and the components stand in the order of the normal forms.

A registry also fixes how its components are bound, and how long an endpoint may take to be made.
-/

set_option autoImplicit false
set_option relaxedAutoImplicit false

namespace Connectors

/-- A component: its schema and what makes its endpoints. -/
structure Component (φ : Type) where
  /-- The schema. -/
  schema : Schema
  /-- What makes the endpoints. -/
  factory : φ

/-- The components of an application. -/
structure Registry (φ : Type) where
  /-- The components, by the normal form of their id. -/
  entries : Fields (Component φ) := []
  /-- How components are bound. -/
  binder : Binder := {}
  /-- How many milliseconds an endpoint may take to be made. -/
  timeout : Option Nat := none

namespace Registry

variable {φ : Type}

/-- The component that an id leads to. -/
def entry? (registry : Registry φ) (id : String) : Option (Component φ) :=
  Fields.get? (Key.normal id) registry.entries

/-- Whether an id leads to a component. -/
def contains (registry : Registry φ) (id : String) : Bool :=
  (registry.entry? id).isSome

/-- Adds a component, unless its id leads to one already. -/
def register (registry : Registry φ) (schema : Schema) (factory : φ) :
    Except SchemaError (Registry φ) :=
  if registry.contains schema.id then .error (.duplicateComponent schema.id)
  else .ok { registry with
    entries := Fields.put (Key.normal schema.id) ⟨schema, factory⟩ registry.entries }

/-- The component that an id leads to, or the error that there is none. -/
def component (registry : Registry φ) (id : String) : Except SchemaError (Component φ) :=
  match registry.entry? id with
  | some component => .ok component
  | none => .error (.unknownComponent id)

/-- The schema of a component. -/
def lookup (registry : Registry φ) (id : String) : Except SchemaError Schema :=
  (registry.component id).map (·.schema)

/-- How many components there are. -/
def size (registry : Registry φ) : Nat :=
  registry.entries.length

/-- All schemas, in the order of the normal forms of their ids. -/
def schemas (registry : Registry φ) : List Schema :=
  (Fields.values registry.entries).map (·.schema)

/-- The ids as declared. -/
def ids (registry : Registry φ) : List String :=
  registry.schemas.map (·.id)

/-- The ids of one category. -/
def names (registry : Registry φ) (kind : ComponentKind) : List String :=
  (registry.schemas.filter (·.kind = kind)).map (·.id)

/-- The catalog of all schemas. -/
def catalog (registry : Registry φ) : Catalog :=
  registry.schemas.foldl Catalog.insert {}

/-- The diagnostic form of a registry, where `shownTime` writes a number of milliseconds. -/
def describe (shownTime : Nat → String) (registry : Registry φ) : String :=
  Text.record "ComponentRegistry"
    [("components", Text.quotedList registry.ids), ("binder", registry.binder.describe),
      ("activation_timeout", Text.shownOption shownTime registry.timeout)]

/-! ### Binding -/

/-- Why no configuration of a component is made. -/
inductive LookupError where
  /-- The component is not there. -/
  | schema (error : SchemaError)
  /-- Its values are refused. -/
  | bind (error : BindError)
deriving DecidableEq, Repr

/-- The wording of an error. -/
def LookupError.message : LookupError → String
  | schema error => error.message
  | bind error => error.message

/-- Binds raw values for the component that an id leads to, without making an endpoint. -/
def bind (registry : Registry φ) (id : String) (raw : RawValues) (resolver : Resolver) :
    Logged (Except LookupError Bound) :=
  match registry.component id with
  | .error error => ⟨[], .error (.schema error)⟩
  | .ok component =>
    (registry.binder.bind component.schema raw resolver).map (·.mapError .bind)

end Registry

end Connectors
