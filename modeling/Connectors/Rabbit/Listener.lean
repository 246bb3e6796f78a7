import Connectors.Rabbit.Topology

/-!
# The RabbitMQ connector

A connector is made in two parts. `prepare` reads and checks the settings and finds the connection
factory, without any request. `start` then tries a connection and declares the topology, each if the
settings ask for it.
-/

set_option autoImplicit false
set_option relaxedAutoImplicit false

namespace Connectors.Rabbit

/-- A live connector. -/
structure Listener where
  /-- Its settings. -/
  settings : Settings
  /-- Its connection factory. -/
  factory : ObjectRef
  /-- Whether it consumes. -/
  running : Bool
deriving DecidableEq, Repr

/-- A request with the connection factory it goes through. -/
structure BrokerCall where
  /-- The connection factory. -/
  factory : ObjectRef
  /-- The request. -/
  request : BrokerRequest
deriving DecidableEq, Repr

/-- What is settled before the first request: the settings and the connection factory. -/
def prepare (config : Bound) : Except RabbitError (Settings × ObjectRef) :=
  match Settings.ofBound config with
  | .error error => .error (.bind error)
  | .ok settings =>
    match settings.fault? with
    | some (option, reason) => .error (.invalidOption option reason)
    | none =>
      match config.requireObject factoryConcreteType "connectionFactory" with
      | .error error => .error (.bind error)
      | .ok none => .error .missingConnectionFactory
      | .ok (some factory) => .ok (settings, factory)

/-- Tries a connection, if the settings ask for it. -/
def checkConnection {σ : Type} (answer : BrokerRequest → σ → Except String Unit × σ)
    (settings : Settings) : Session BrokerRequest σ (Except RabbitError Unit) :=
  if settings.testConnectionOnStartup then do
    match ← Session.ask answer .connect with
    | .ok () => return .ok ()
    | .error cause => return .error (.connection cause)
  else pure (.ok ())

/-- What is asked of the broker at the start. -/
def connect {σ : Type} (answer : BrokerRequest → σ → Except String Unit × σ)
    (settings : Settings) : Session BrokerRequest σ (Except RabbitError Unit) := do
  match ← checkConnection answer settings with
  | .error error => return .error error
  | .ok () => if settings.autoDeclare then declare answer settings else return .ok ()

/-- Makes a connector. -/
def start {σ : Type} (answer : BrokerCall → σ → Except String Unit × σ) (config : Bound) :
    Session BrokerCall σ (Except RabbitError Listener) :=
  match prepare config with
  | .error error => pure (.error error)
  | .ok (settings, factory) => do
    let connected ← (connect (fun request ↦ answer ⟨factory, request⟩) settings).mapRequests
      (BrokerCall.mk factory)
    return connected.map fun _ ↦ ⟨settings, factory, settings.autoStartup⟩

/-- The address of a connector. -/
def Listener.uri (listener : Listener) : String :=
  componentId ++ ":" ++ listener.settings.exchangeName

/-- The connector, consuming. -/
def Listener.resume (listener : Listener) : Listener :=
  { listener with running := true }

/-- The connector after its shutdown. -/
def Listener.stop (listener : Listener) : Listener :=
  { listener with running := false }

end Connectors.Rabbit
