import Connectors.Calendar.Stream
import Connectors.Kinesis.Consumer
import Connectors.Rabbit.Listener
import Connectors.Registry
import Connectors.Text.Duration

/-!
# Activating components

Activating a component binds its raw values and has its factory make an endpoint. `Factory` lists
what makes endpoints: the three connectors, and a probe that takes its time and answers as it was
told to. `Outside` is how the services behind the connectors answer.

An endpoint may take a while to be made. What is made, or why it is not, is given together with the
time it takes (`Awaited`), and a registry with a timeout does not wait longer than that.

Nothing is asked of a service before the raw values are bound and the settings are checked, since
each connector settles these before its first request.
-/

set_option autoImplicit false
set_option relaxedAutoImplicit false

namespace Connectors

/-! ### Endpoints -/

/-- An endpoint that only tells what it was made from. -/
structure Probe where
  /-- Its address. -/
  uri : String
  /-- What its shutdown fails with. -/
  shutdownFault : Option String
deriving DecidableEq, Repr

/-- A live endpoint. -/
inductive Endpoint where
  /-- A Kinesis consumer. -/
  | kinesis (consumer : Kinesis.Consumer)
  /-- A RabbitMQ connector. -/
  | rabbit (listener : Rabbit.Listener)
  /-- A calendar stream. -/
  | calendar (stream : Calendar.Stream)
  /-- A probe. -/
  | probe (probe : Probe)
deriving DecidableEq, Repr

/-- The address of an endpoint. -/
def Endpoint.uri : Endpoint → String
  | kinesis consumer => consumer.uri
  | rabbit listener => listener.uri
  | calendar stream => stream.uri
  | probe made => made.uri

/-! ### Errors -/

/-- Why a factory makes no endpoint. -/
inductive FactoryError where
  /-- A Kinesis consumer is not made. -/
  | kinesis (error : Kinesis.KinesisError)
  /-- A RabbitMQ connector is not made. -/
  | rabbit (error : Rabbit.RabbitError)
  /-- A calendar stream is not made. -/
  | calendar (error : Calendar.CalendarError)
  /-- It takes longer than it may, in milliseconds. -/
  | timeout (limit : Nat)
  /-- Anything else. -/
  | other (text : String)
deriving DecidableEq, Repr

namespace FactoryError

/-- The wording of an error. -/
def message : FactoryError → String
  | kinesis error => error.message
  | rabbit error => error.message
  | calendar error => error.message
  | timeout limit => "activation timed out after " ++ Text.duration limit
  | other text => text

/-- The errors behind an error, from the nearest to the farthest. -/
def causes : FactoryError → List String
  | kinesis (.client cause) => [cause]
  | rabbit (.connection cause) => [cause]
  | rabbit (.declaration _ cause) => [cause]
  | calendar (.authorization cause) => [cause]
  | calendar (.client cause) => [cause]
  | _ => []

end FactoryError

/-- Why a component is not activated. -/
inductive ActivationError where
  /-- It is not there, or its values are refused. -/
  | lookup (error : Registry.LookupError)
  /-- Its factory makes no endpoint. -/
  | factory (component : String) (error : FactoryError)
deriving DecidableEq, Repr

/-- The wording of an error. -/
def ActivationError.message : ActivationError → String
  | lookup error => error.message
  | factory component error =>
    "failed to activate component '" ++ component ++ "': " ++ error.message

/-! ### Factories -/

/-- What a probe does when it is made and shut down. -/
structure ProbePlan where
  /-- What making it fails with. -/
  fault : Option String := none
  /-- How many milliseconds making it takes. -/
  delay : Nat := 0
  /-- What its shutdown fails with. -/
  shutdownFault : Option String := none
deriving DecidableEq, Repr

/-- What makes endpoints. -/
inductive Factory where
  /-- Makes Kinesis consumers. -/
  | kinesis
  /-- Makes RabbitMQ connectors. -/
  | rabbit
  /-- Makes calendar streams. -/
  | calendar
  /-- Makes probes. -/
  | probe (plan : ProbePlan)
deriving DecidableEq, Repr

/-- A request to a service. -/
inductive ServiceRequest where
  /-- To a Kinesis client. -/
  | kinesis (request : Kinesis.Listing)
  /-- To a broker. -/
  | rabbit (request : Rabbit.BrokerCall)
  /-- To a calendar client factory. -/
  | calendar (request : Calendar.ClientRequest)
deriving DecidableEq, Repr

/-- How the services answer, where `σ` is the state they are in. -/
structure Outside (σ : Type) where
  /-- How a Kinesis client answers. -/
  kinesis : Kinesis.Listing → σ → Except String (List String) × σ
  /-- How a broker answers. -/
  rabbit : Rabbit.BrokerCall → σ → Except String Unit × σ
  /-- How a calendar client factory answers. -/
  calendar : Calendar.ClientRequest → σ → Except String Unit × σ

/-- A value that is there after a time. -/
structure Awaited (α : Type) where
  /-- How many milliseconds it takes. -/
  wait : Nat
  /-- The value. -/
  value : α
deriving DecidableEq, Repr

/-- The address of a probe: the component and its properties in order. -/
def Probe.uriOf (config : Bound) : String :=
  config.component ++ ":" ++ Text.join "&" (config.properties.map fun (key, text) ↦
    key ++ "=" ++ text)

/-- Makes an endpoint for a configuration, at the time `now`. -/
def Factory.create {σ : Type} (outside : Outside σ) (now : Calendar.Instant) (factory : Factory)
    (config : Bound) : Session ServiceRequest σ (Awaited (Except FactoryError Endpoint)) :=
  match factory with
  | .kinesis => do
    let made ← (Kinesis.start outside.kinesis config).mapRequests .kinesis
    return ⟨0, (made.map .kinesis).mapError .kinesis⟩
  | .rabbit => do
    let made ← (Rabbit.start outside.rabbit config).mapRequests .rabbit
    return ⟨0, (made.map .rabbit).mapError .rabbit⟩
  | .calendar => do
    let made ← (Calendar.start outside.calendar now config).mapRequests .calendar
    return ⟨0, (made.map .calendar).mapError .calendar⟩
  | .probe plan =>
    match plan.fault with
    | some text => pure ⟨0, .error (.other text)⟩
    | none => pure ⟨plan.delay, .ok (.probe ⟨Probe.uriOf config, plan.shutdownFault⟩)⟩

/-- An endpoint that is made within a time limit. -/
def Awaited.within (limit : Option Nat) (made : Awaited (Except FactoryError Endpoint)) :
    Awaited (Except FactoryError Endpoint) :=
  match limit with
  | none => made
  | some limit => if limit < made.wait then ⟨limit, .error (.timeout limit)⟩ else made

/-- An endpoint with the id of its component. -/
structure Activated where
  /-- The id of the component, as declared. -/
  component : String
  /-- The endpoint. -/
  endpoint : Endpoint
deriving DecidableEq, Repr

/-- Binds raw values for the component that an id leads to and makes its endpoint. -/
def Registry.activate {σ : Type} (registry : Registry Factory) (outside : Outside σ)
    (now : Calendar.Instant) (id : String) (raw : RawValues) (resolver : Resolver) :
    Session ServiceRequest σ (Awaited (Except ActivationError Activated)) :=
  match registry.component id with
  | .error error => pure ⟨0, .error (.lookup (.schema error))⟩
  | .ok component => do
    match ← Session.ofLogged (registry.binder.bind component.schema raw resolver) with
    | .error error => return ⟨0, .error (.lookup (.bind error))⟩
    | .ok config =>
      let made := (← component.factory.create outside now config).within registry.timeout
      return ⟨made.wait,
        (made.value.map (Activated.mk component.schema.id)).mapError
          (.factory component.schema.id)⟩

/-! ### The connectors -/

/-- The drafts of the connectors, with what makes their endpoints. -/
def connectors : List (Draft × Factory) :=
  [(Kinesis.draft, .kinesis), (Calendar.draft, .calendar), (Rabbit.draft, .rabbit)]

/-- The registry with a component added, whose schema is made from a draft. -/
def Registry.registerDraft (registry : Registry Factory) (draft : Draft) (factory : Factory) :
    Except SchemaError (Registry Factory) :=
  match draft.build with
  | .error error => .error error
  | .ok schema => registry.register schema factory

/-- The registry with drafts added, one after another. -/
def Registry.registerAll (registry : Registry Factory) :
    List (Draft × Factory) → Except SchemaError (Registry Factory)
  | [] => .ok registry
  | (draft, factory) :: rest =>
    match registry.registerDraft draft factory with
    | .error error => .error error
    | .ok registry => registry.registerAll rest

end Connectors
