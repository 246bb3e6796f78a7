import Connectors.Binding.Binder
import Connectors.Config.Error
import Connectors.Json.Data
import Connectors.Text.Blank

/-!
# Sections

The section of a component is a table of settings. `ComponentSection.ofDatum` turns one into the raw
values of the component: the names on the way to a nested value are joined by points, the items of a
list by commas, scalars are written as text, and what is null is left out. The key `enabled` of the
section itself is no setting but the switch of the component.

When two settings come out under one key the later one stays.
-/

set_option autoImplicit false
set_option relaxedAutoImplicit false

namespace Connectors

/-- The section of a component, ready to be bound. -/
structure ComponentSection where
  /-- The id as written. -/
  id : String
  /-- Whether the component is switched on. -/
  enabled : Bool
  /-- The settings. -/
  values : Fields String
deriving DecidableEq, Repr

namespace ComponentSection

/-- The key of the switch. -/
def switchKey : String := "enabled"

/-- The text of a scalar. -/
def scalarText? : Datum → Option String
  | .text value => some value
  | .bool value => some (OptionValue.boolText value)
  | .int value => some (Integer.write value)
  | .float value => some value.text
  | _ => none

/-- A type of data as messages show it. -/
def typeName : Datum → String
  | .null => "null"
  | .bool _ => "a boolean"
  | .int _ => "a number"
  | .float _ => "a number"
  | .text _ => "a string"
  | .list _ => "a list"
  | .table _ => "a table"

/-- The texts of the items of a list, without those that are null. -/
def itemTexts? : List Datum → Option (List String)
  | [] => some []
  | item :: rest =>
    match scalarText? item, item with
    | some text, _ => (itemTexts? rest).map (text :: ·)
    | none, .null => itemTexts? rest
    | none, _ => none

mutual

/-- The settings below a key, in order. -/
def flatten (key : String) : Datum → Except SectionFault (List (String × String))
  | .table fields => flattenFields (key ++ ".") fields
  | .list items =>
    match itemTexts? items with
    | some texts => .ok [(key, Text.join "," texts)]
    | none => .error (.nestedList key)
  | value =>
    match scalarText? value with
    | some text => .ok [(key, text)]
    | none => .ok []

/-- The settings of fields whose keys all begin with the same path. -/
def flattenFields (path : String) :
    List (String × Datum) → Except SectionFault (List (String × String))
  | [] => .ok []
  | (key, value) :: rest =>
    match flatten (path ++ key) value with
    | .error fault => .error fault
    | .ok first => (flattenFields path rest).map (first ++ ·)

end

/-- The position of a switch. -/
def switch (value : Datum) : Except SectionFault Bool :=
  let refused : Except SectionFault Bool := .error (.switchNotBoolean value.json)
  match value with
  | .bool enabled => .ok enabled
  | .text text => (OptionKind.parseBool? text).elim refused .ok
  | _ => refused

/-- The switch and the settings of a section's fields, after those that come before them. -/
def read (enabled : Bool) (values : Fields String) :
    List (String × Datum) → Except SectionFault (Bool × Fields String)
  | [] => .ok (enabled, values)
  | (key, value) :: rest =>
    if key = switchKey then
      match switch value with
      | .ok enabled => read enabled values rest
      | .error fault => .error fault
    else
      match flatten key value with
      | .ok settings => read enabled (Fields.putAll values settings) rest
      | .error fault => .error fault

/-- The section that a value holds. No value at all is an empty section. -/
def ofDatum (id : String) (value : Datum) : Except ConfigError ComponentSection :=
  match value with
  | .table fields =>
    match read true [] fields with
    | .ok (enabled, values) => .ok ⟨id, enabled, values⟩
    | .error fault => .error (.invalidSection id fault)
  | .null => .ok ⟨id, true, []⟩
  | other => .error (.invalidSection id (.notATable (typeName other)))

/-- The settings as raw values. -/
def rawValues (component : ComponentSection) : RawValues :=
  component.values.map fun (key, text) ↦ (key, .text text)

/-- The sections of fields whose names are ids, in order. `seen` holds the ids before, each with its
normal form. -/
def readAll (seen : List (String × String)) :
    List (String × Datum) → Except ConfigError (List ComponentSection)
  | [] => .ok []
  | (id, value) :: rest =>
    if (Text.trim id).isEmpty then .error (.validation .emptyComponentId)
    else match seen.lookup (Key.normal id) with
      | some previous => .error (.validation (.sameComponent previous id))
      | none =>
        match ofDatum id value with
        | .error error => .error error
        | .ok first => (readAll ((Key.normal id, id) :: seen) rest).map (first :: ·)

end ComponentSection

end Connectors
