import Connectors.Options.Kind

/-!
# Declared options

An `OptionSpec` is what a component declares about one of its options: the name and kind, a default
in its text form, and marks that say how the option is treated. A declaration is not checked on its
own; that happens when declarations are put together into a schema.
-/

set_option autoImplicit false
set_option relaxedAutoImplicit false

namespace Connectors

/-- The declaration of one option. -/
structure OptionSpec where
  /-- The declared name. -/
  name : String
  /-- What the option holds. -/
  kind : OptionKind
  /-- The default, in its text form. -/
  fallback : Option String := none
  /-- Whether a configuration without a value is refused. -/
  required : Bool := false
  /-- Whether giving a value is reported. -/
  deprecated : Bool := false
  /-- Whether the value is hidden from messages and logs. -/
  secret : Bool := false
  /-- Whether an object is found by its type when none is given. -/
  autowired : Bool := false
  /-- What the option is for. -/
  description : Option String := none
deriving DecidableEq, Repr

/-- What stands in place of a secret value. -/
def redacted : String := "******"

namespace OptionSpec

/-- The option with a default. -/
def withDefault (spec : OptionSpec) (text : String) : OptionSpec :=
  { spec with fallback := some text }

/-- The option with a description. -/
def describedAs (spec : OptionSpec) (text : String) : OptionSpec :=
  { spec with description := some text }

/-- The option as a secret one. -/
def asSecret (spec : OptionSpec) : OptionSpec :=
  { spec with secret := true }

end OptionSpec

end Connectors
