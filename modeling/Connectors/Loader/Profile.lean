import Connectors.Text.Lowercase

/-!
# Profiles

A profile selects the variant of a configuration file that is read beside the file itself. Profiles
are named in any case, and the two common ones also have a short name.
-/

set_option autoImplicit false
set_option relaxedAutoImplicit false

namespace Connectors

/-- A set of settings for an occasion. -/
inductive Profile where
  /-- For development, which is the usual one. -/
  | development
  /-- For production. -/
  | production
  /-- For anything else. -/
  | custom (name : String)
deriving DecidableEq, Repr

namespace Profile

/-- The profile of a name. -/
def ofName (name : String) : Profile :=
  let lower := Text.lowerText name
  if lower = "production" ∨ lower = "prod" then production
  else if lower = "development" ∨ lower = "dev" then development
  else custom lower

/-- The name of a profile. -/
def name : Profile → String
  | development => "development"
  | production => "production"
  | custom name => name

end Profile

end Connectors
