import Connectors.Fields
import Connectors.Key
import Connectors.Options.Spec

/-!
# Schemas

A schema is the ordered list of the options of one component, with an index of their names. It is
made from a `Draft`, which may hold anything, by `Draft.build`. This enters the options in the index
one after another (`NameIndex.enter`), and refuses a name that repeats an earlier one in any
spelling and a default that is no value of its option's kind. So the options of a `Schema` are known
to be without such a fault (`Schema.indexed`), and a name in any spelling leads to at most one of
them (`Schema.indexOf?`, `Schema.option?`).
-/

set_option autoImplicit false
set_option relaxedAutoImplicit false

namespace Connectors

/-- The category of a component. -/
inductive ComponentKind where
  /-- A connector that makes endpoints. -/
  | component
  /-- A data format. -/
  | dataFormat
  /-- An expression language. -/
  | language
  /-- Anything else. -/
  | other
deriving DecidableEq, Repr

namespace ComponentKind

/-- All categories, in the order in which a catalog lists them. -/
def all : List ComponentKind := [component, dataFormat, language, other]

/-- The name of a category. -/
def name : ComponentKind → String
  | component => "component"
  | dataFormat => "dataformat"
  | language => "language"
  | other => "other"

/-- The category of a name. -/
def ofName? (name : String) : Option ComponentKind :=
  all.find? fun kind ↦ kind.name == name

/-- The diagnostic form of a category. -/
def describe : ComponentKind → String
  | component => "Component"
  | dataFormat => "DataFormat"
  | language => "Language"
  | other => "Other"

end ComponentKind

/-- What is wrong with a default. -/
inductive DefaultFault where
  /-- The option holds an object, which has no text. -/
  | objectReference
  /-- The default is not one of the constants of the kind. -/
  | notAllowed (kind : OptionKind)
  /-- The default does not have the form of the kind. -/
  | malformed (kind : OptionKind)
deriving DecidableEq, Repr

/-- The wording of a fault. -/
def DefaultFault.message : DefaultFault → String
  | objectReference => "object references cannot have defaults"
  | notAllowed kind => "not one of the allowed values of " ++ kind.describe
  | malformed kind => "not a valid " ++ kind.describe

/-- Why a schema is not made, registered or found. -/
inductive SchemaError where
  /-- A component of this id is there already. -/
  | duplicateComponent (id : String)
  /-- No component has this id. -/
  | unknownComponent (id : String)
  /-- Two options of a component have one name. -/
  | duplicateOption (component option : String)
  /-- A default is no value of its option. -/
  | invalidDefault (component option value : String) (fault : DefaultFault)
  /-- A text is no schema document. -/
  | invalidDocument
deriving DecidableEq, Repr

/-- The wording of an error. -/
def SchemaError.message : SchemaError → String
  | duplicateComponent id => "component '" ++ id ++ "' is already registered"
  | unknownComponent id => "unknown component '" ++ id ++ "'"
  | duplicateOption component option =>
    "component '" ++ component ++ "' declares option '" ++ option ++ "' more than once"
  | invalidDefault component option value fault =>
    "component '" ++ component ++ "': default '" ++ value ++ "' of option '" ++ option
      ++ "' is invalid: " ++ fault.message
  | invalidDocument => "invalid schema document"

/-- What is wrong with the default of an option, if anything is. -/
def OptionSpec.defaultFault? (spec : OptionSpec) : Option DefaultFault :=
  match spec.fallback with
  | none => none
  | some text =>
    match spec.kind, spec.kind.parse text with
    | .object _, _ => some .objectReference
    | _, .ok _ => none
    | kind, .error .notInEnum => some (.notAllowed kind)
    | kind, .error .malformed => some (.malformed kind)

/-- What is wrong with a list of options. -/
inductive OptionsFault where
  /-- An option repeats the name of an earlier one. -/
  | repeated (spec : OptionSpec)
  /-- The default of an option is refused. -/
  | badDefault (spec : OptionSpec) (value : String) (fault : DefaultFault)
deriving DecidableEq, Repr

/-- The positions of options, by the normal forms of their names. -/
abbrev NameIndex : Type := Fields Nat

/-- Enters options in an index, the first of them under `position`, and checks each of them. A name
that is entered already is a fault that is found before a bad default of the same option. -/
def NameIndex.enter (index : NameIndex) (position : Nat) :
    List OptionSpec → Except OptionsFault NameIndex
  | [] => .ok index
  | spec :: rest =>
    if Fields.has (Key.normal spec.name) index then .error (.repeated spec)
    else match spec.defaultFault? with
      | some fault => .error (.badDefault spec (spec.fallback.getD "") fault)
      | none =>
        NameIndex.enter (Fields.put (Key.normal spec.name) position index) (position + 1) rest

/-- The content of a schema before it is checked. -/
structure Draft where
  /-- The id of the component. -/
  id : String
  /-- The category. -/
  kind : ComponentKind := .component
  /-- A title for people. -/
  title : Option String := none
  /-- The options, in the order declared. -/
  options : List OptionSpec := []
deriving DecidableEq, Repr

/-- The options of one component with the index of their names, known to be without a fault. -/
structure Schema extends Draft where
  /-- The index: what entering the options makes. -/
  index : NameIndex := (NameIndex.enter [] 0 options).toOption.getD []
  /-- No name repeats an earlier one, and every default is a value of its option. -/
  indexed : NameIndex.enter [] 0 options = .ok index
deriving DecidableEq

/-- Checks a draft. The first option at fault, in the order declared, is reported. -/
def Draft.build (draft : Draft) : Except SchemaError Schema :=
  match indexed : NameIndex.enter [] 0 draft.options with
  | .ok index => .ok ⟨draft, index, indexed⟩
  | .error (.repeated spec) => .error (.duplicateOption draft.id spec.name)
  | .error (.badDefault spec value reason) =>
    .error (.invalidDefault draft.id spec.name value reason)

namespace Schema

/-- The position of the option that a name in any spelling leads to. -/
def indexOf? (schema : Schema) (name : String) : Option Nat :=
  Fields.get? (Key.normal name) schema.index

/-- The option that a name in any spelling leads to. -/
def option? (schema : Schema) (name : String) : Option OptionSpec :=
  (schema.indexOf? name).bind (schema.options[·]?)

/-- How many options a schema has. -/
def size (schema : Schema) : Nat :=
  schema.options.length

/-- The options that need a value. -/
def required (schema : Schema) : List OptionSpec :=
  schema.options.filter (·.required)

/-- The diagnostic form of a schema. -/
def describe (schema : Schema) : String :=
  Text.record "ComponentSchema"
    [("id", Text.quote schema.id), ("kind", schema.kind.describe),
      ("options", Integer.write schema.size)]

end Schema

end Connectors
