import Connectors.Options.Kind

/-!
# Why a configuration is refused

Binding stops at the first thing that is wrong and says what it is (`BindError`). Each error names
the component; most name the option as the schema declares it.
-/

set_option autoImplicit false
set_option relaxedAutoImplicit false

namespace Connectors

/-- Why raw values are not a configuration of a component. -/
inductive BindError where
  /-- A required option has no value. -/
  | missingRequired (component option : String)
  /-- A value is not of the kind expected. -/
  | typeCoercion (component option value : String) (expected : OptionKind)
  /-- A value is not one of the constants allowed. -/
  | invalidEnumValue (component option value : String) (allowed : List String)
  /-- A key leads to no option. -/
  | unknownOption (component key : String)
  /-- A reference names no object. -/
  | unresolvedReference (component option name : String)
  /-- Several keys lead to one option. -/
  | conflictingKeys (component option : String) (keys : List String)
deriving DecidableEq, Repr

namespace BindError

/-- The component whose configuration is refused. -/
def component : BindError → String
  | missingRequired component _ => component
  | typeCoercion component _ _ _ => component
  | invalidEnumValue component _ _ _ => component
  | unknownOption component _ => component
  | unresolvedReference component _ _ => component
  | conflictingKeys component _ _ => component

/-- The wording of an error. -/
def message : BindError → String
  | missingRequired component option =>
    "component '" ++ component ++ "': missing required option '" ++ option ++ "'"
  | typeCoercion component option value expected =>
    "component '" ++ component ++ "': cannot convert '" ++ value ++ "' for option '" ++ option
      ++ "' to " ++ expected.describe
  | invalidEnumValue component option value allowed =>
    "component '" ++ component ++ "': '" ++ value ++ "' is not a valid value for option '"
      ++ option ++ "' (allowed: " ++ Text.join ", " allowed ++ ")"
  | unknownOption component key =>
    "component '" ++ component ++ "': unknown option '" ++ key ++ "'"
  | unresolvedReference component option name =>
    "component '" ++ component ++ "': option '" ++ option ++ "' references unknown object '"
      ++ name ++ "'"
  | conflictingKeys component option keys =>
    "component '" ++ component ++ "': option '" ++ option ++ "' is set by several keys ("
      ++ Text.join ", " keys ++ ")"

end BindError

end Connectors
