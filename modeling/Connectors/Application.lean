import Connectors.Activation
import Connectors.Config.Validation
import Connectors.Lifecycle
import Connectors.Loader.Basic
import Connectors.Logging

/-!
# Applications

An application is a valid configuration together with the registry that serves it
(`Application.build`). The configuration decides how the registry binds, and how long it waits if
the configuration says so.

`Application.pending` lists the sections that a start activates, in the order of their ids. Sections
that are switched off are passed over. So are those that no component is registered for, with a
warning, unless the application is strict about what it does not know.
-/

set_option autoImplicit false
set_option relaxedAutoImplicit false

namespace Connectors

/-- Why an application is not built or not started. -/
inductive ApplicationError where
  /-- Its configuration is not loaded or not valid. -/
  | config (error : ConfigError)
  /-- A component is not registered or not activated. -/
  | activation (error : ActivationError)
  /-- It runs already. -/
  | alreadyRunning
deriving DecidableEq

namespace ApplicationError

/-- The error that a component is not registered. -/
def schema (error : SchemaError) : ApplicationError :=
  .activation (.lookup (.schema error))

/-- The wording of an error. -/
def message : ApplicationError → String
  | config error => error.message
  | activation error => error.message
  | alreadyRunning => "Runtime is already running"

/-- The errors behind an error, from the nearest to the farthest. -/
def causes : ApplicationError → List String
  | activation (.factory _ error) => error.message :: error.causes
  | _ => []

end ApplicationError

/-- A configuration and the registry that serves it. -/
structure Application where
  /-- The configuration. -/
  config : Config
  /-- The registry. -/
  registry : Registry Factory

namespace Application

/-- The registry as a configuration wants it. -/
def configured (config : Config) (registry : Registry Factory) : Registry Factory :=
  { registry with
    binder := config.binding.binder
    timeout := config.binding.activationTimeout.or registry.timeout }

/-- Builds an application from a configuration, and from the registry of its connectors if no other
one is given. -/
def build (config : Config) (registry : Option (Registry Factory)) (setsUpLogging : Bool)
    (linked : List (Draft × Factory)) : Logged (Except ApplicationError Application) :=
  match config.validate with
  | .error error => ⟨[], .error (.config error)⟩
  | .ok () =>
    let logging : Logged (Option String) :=
      if setsUpLogging then (LogSetup.ofConfig config.logging).install else ⟨[], none⟩
    let registry : Except SchemaError (Registry Factory) :=
      match registry with
      | some registry => .ok registry
      | none => Registry.registerAll {} linked
    ⟨logging.events,
      match registry with
      | .error error => .error (.schema error)
      | .ok registry => .ok ⟨config, configured config registry⟩⟩

/-- Loads a configuration and builds an application from it. -/
def load (around : Surroundings) (loader : Loader) (registry : Option (Registry Factory))
    (setsUpLogging : Bool) (linked : List (Draft × Factory)) :
    Logged (Except ApplicationError Application) := do
  match ← loader.load around with
  | .error error => return .error (.config error)
  | .ok config => build config registry setsUpLogging linked

/-- The sections to activate and how many are passed over, from sections in order. -/
def select (registry : Registry Factory) :
    List ComponentSection → Logged (Except SchemaError (List ComponentSection × Nat))
  | [] => ⟨[], .ok ([], 0)⟩
  | first :: rest =>
    if !first.enabled then
      (select registry rest).map (·.map fun (pending, skipped) ↦ (pending, skipped + 1))
    else if registry.contains first.id then
      (select registry rest).map (·.map fun (pending, skipped) ↦ (first :: pending, skipped))
    else if registry.binder.unknownKeys = .strict then ⟨[], .error (.unknownComponent first.id)⟩
    else
      let others := select registry rest
      ⟨.warn "No component registered for configuration section, skipping"
          [("component", first.id)] :: others.events,
        others.value.map fun (pending, skipped) ↦ (pending, skipped + 1)⟩

/-- The sections that a start activates, and how many it passes over. -/
def pending (application : Application) :
    Logged (Except ApplicationError (List ComponentSection × Nat)) :=
  match application.config.sections with
  | .error error => ⟨[], .error (.config error)⟩
  | .ok sections => (select application.registry sections).map (·.mapError .schema)

end Application

/-! ### Statistics -/

/-- Figures about a running application. -/
structure Stats where
  /-- How many components are registered. -/
  registered : Nat
  /-- How many endpoints there are. -/
  active : Nat
  /-- How many sections were passed over. -/
  skipped : Nat
  /-- Whether it runs. -/
  running : Bool
deriving DecidableEq, Repr

/-- The figures on one line. -/
def Stats.text (stats : Stats) : String :=
  "Components: " ++ Integer.write stats.registered ++ " registered, " ++ Integer.write stats.active
    ++ " active, " ++ Integer.write stats.skipped ++ " skipped ("
    ++ (if stats.running then "running" else "stopped") ++ ")"

/-- The figures of an application and its endpoints. -/
def Application.stats {η : Type} (application : Application) (set : Lifecycle η) : Stats :=
  ⟨application.registry.size, set.endpoints.length, set.skipped, set.running⟩

end Connectors
