import Connectors.Binding.Bound
import Connectors.Event

/-!
# Binding

`Binder.bind` turns raw values into a configuration of a component. The raw values are first put
into groups, one for each normal form of a key (`Supplied`). Then the options of the schema take
their groups in the order declared:

* an option without a group has its default, or the only object of its type if it is filled by type,
  or else no value, which is refused if the option is required;
* a group of one entry gives the value, read by the rules of the option's kind;
* a group of several entries is refused.

The first refusal is the answer. What is left over at the end are keys that lead to no option: a
strict binder refuses the smallest of them and a lenient one passes over them all.

A value that is given for a deprecated option is reported, whether or not it is accepted.
-/

set_option autoImplicit false
set_option relaxedAutoImplicit false

namespace Connectors

/-- What a binder does with keys that lead to no option. -/
inductive UnknownKeyPolicy where
  /-- It passes over them. -/
  | lenient
  /-- It refuses them. -/
  | strict
deriving DecidableEq, Repr

/-- The name of a policy. -/
def UnknownKeyPolicy.name : UnknownKeyPolicy → String
  | lenient => "lenient"
  | strict => "strict"

/-- A value as it is given for an option. -/
inductive RawValue where
  /-- A text. -/
  | text (value : String)
  /-- An object. -/
  | object (reference : ObjectRef)
deriving DecidableEq, Repr

/-- The values given for a component, by keys in any spelling. No key stands twice, and the order
carries no meaning. -/
abbrev RawValues : Type := List (String × RawValue)

/-- The rules of binding. -/
structure Binder where
  /-- What happens to keys that lead to no option. -/
  unknownKeys : UnknownKeyPolicy := .lenient
  /-- Whether objects are found by their type. -/
  autowire : Bool := true
deriving DecidableEq, Repr

/-! ### Groups of keys -/

/-- Raw values in groups, each under the normal form that its keys share. -/
abbrev Supplied : Type := List (String × List (String × RawValue))

namespace Supplied

/-- Adds an entry to the group of a normal form. -/
def add (form : String) (entry : String × RawValue) : Supplied → Supplied
  | [] => [(form, [entry])]
  | (other, group) :: rest =>
    if other = form then (other, group ++ [entry]) :: rest
    else (other, group) :: add form entry rest

/-- The groups of raw values. -/
def ofRaw (raw : RawValues) : Supplied :=
  raw.foldl (fun supplied entry ↦ supplied.add (Key.normal entry.1) entry) []

/-- The entries under a normal form. -/
def group (form : String) : Supplied → List (String × RawValue)
  | [] => []
  | (other, entries) :: rest => if other = form then entries else group form rest

/-- The groups other than the one under a normal form. -/
def without (form : String) (supplied : Supplied) : Supplied :=
  supplied.filter (·.1 ≠ form)

/-- The keys of all groups, in order. -/
def keys (supplied : Supplied) : List String :=
  (supplied.flatMap fun group ↦ group.2.map (·.1)).mergeSort (· ≤ ·)

end Supplied

namespace Binder

/-- The binder that refuses keys which lead to no option. -/
def strict : Binder := { unknownKeys := .strict }

/-- The diagnostic form of a binder. -/
def describe (binder : Binder) : String :=
  Text.record "Binder"
    [("unknown_keys", match binder.unknownKeys with
        | .lenient => "Lenient"
        | .strict => "Strict"),
      ("autowire", OptionValue.boolText binder.autowire)]

/-! ### The value of one option -/

/-- Reads a text as the value of an option. An error shows the text unless the option is secret. -/
def coerceText (component : String) (spec : OptionSpec) (text : String) :
    Except BindError OptionValue :=
  let shown := if spec.secret then redacted else text
  match spec.kind.parse text, spec.kind with
  | .ok value, _ => .ok value
  | .error .notInEnum, .enum values => .error (.invalidEnumValue component spec.name shown values)
  | .error _, kind => .error (.typeCoercion component spec.name shown kind)

/-- Takes an object as the value of an option, if it is offered under the type declared. -/
def checkObject (component : String) (spec : OptionSpec) (reference : ObjectRef) :
    Except BindError OptionValue :=
  let refused :=
    .error (.typeCoercion component spec.name ("<" ++ reference.typeName ++ ">") spec.kind)
  match spec.kind with
  | .object typeName => if reference.isType typeName then .ok (.object reference) else refused
  | _ => refused

/-- The value that an entry gives to an option. -/
def coerce (component : String) (resolver : Resolver) (spec : OptionSpec) (raw : RawValue) :
    Except BindError OptionValue :=
  match raw, spec.kind with
  | .text text, .object _ =>
    let name := referenceName text
    match resolver.lookup name with
    | some reference => checkObject component spec reference
    | none => .error (.unresolvedReference component spec.name name)
  | .object reference, _ => checkObject component spec reference
  | .text text, _ => coerceText component spec text

/-- The only object that fits an option which is filled by type. -/
def autowired? (binder : Binder) (resolver : Resolver) (spec : OptionSpec) : Option ObjectRef :=
  match spec.kind with
  | .object typeName =>
    if binder.autowire && spec.autowired then
      match resolver.findByType typeName with
      | [reference] => some reference
      | _ => none
    else none
  | _ => none

/-- The value of an option that no entry is given for. -/
def absent (binder : Binder) (component : String) (resolver : Resolver) (spec : OptionSpec) :
    Except BindError (Option OptionValue) :=
  match spec.fallback with
  | some text => (coerceText component spec text).map some
  | none =>
    match binder.autowired? resolver spec with
    | some reference => .ok (some (.object reference))
    | none => if spec.required then .error (.missingRequired component spec.name) else .ok none

/-- The report of a value given for a deprecated option. -/
def deprecation (component : String) (spec : OptionSpec) (key : String) : List Event :=
  if spec.deprecated then
    [.warn "Option is deprecated" [("component", component), ("option", spec.name), ("key", key)]]
  else []

/-- The value of an option, from the entries whose keys lead to it. -/
def resolve (binder : Binder) (component : String) (resolver : Resolver) (spec : OptionSpec)
    (entries : List (String × RawValue)) : Logged (Except BindError (Option OptionValue)) :=
  match entries with
  | [] => ⟨[], binder.absent component resolver spec⟩
  | [(key, raw)] =>
    ⟨deprecation component spec key, (coerce component resolver spec raw).map some⟩
  | _ =>
    ⟨[], .error (.conflictingKeys component spec.name ((entries.map (·.1)).mergeSort (· ≤ ·)))⟩

/-! ### All options -/

/-- The values of options in turn, and the groups that none of them took. -/
def bindOptions (binder : Binder) (component : String) (resolver : Resolver)
    (supplied : Supplied) :
    List OptionSpec → Logged (Except BindError (List (Option OptionValue) × Supplied))
  | [] => ⟨[], .ok ([], supplied)⟩
  | spec :: rest =>
    let form := Key.normal spec.name
    let first := binder.resolve component resolver spec (supplied.group form)
    match first.value with
    | .error error => ⟨first.events, .error error⟩
    | .ok value =>
      let others := binder.bindOptions component resolver (supplied.without form) rest
      ⟨first.events ++ others.events,
        others.value.map fun (values, left) ↦ (value :: values, left)⟩

/-- The configuration that raw values give to a component. -/
def bind (binder : Binder) (schema : Schema) (raw : RawValues) (resolver : Resolver) :
    Logged (Except BindError Bound) :=
  (binder.bindOptions schema.id resolver (Supplied.ofRaw raw) schema.options).map fun outcome ↦
    outcome.bind fun (values, left) ↦
      match binder.unknownKeys, left.keys with
      | .strict, key :: _ => .error (.unknownOption schema.id key)
      | _, _ => .ok ⟨schema, values⟩

end Binder

end Connectors
