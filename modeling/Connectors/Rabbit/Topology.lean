import Connectors.Rabbit.Settings
import Connectors.Session

/-!
# Declaring a topology on the broker

What the settings call for on the broker is a list of declarations in a fixed order (`plan`): an
exchange comes before what is bound to it, and a queue before its bindings. `declare` puts them to
the broker one after another. If failures are tolerated each one is reported and the next
declaration follows; otherwise the first failure ends it.
-/

set_option autoImplicit false
set_option relaxedAutoImplicit false

namespace Connectors.Rabbit

/-- A request to a broker. -/
inductive BrokerRequest where
  /-- Opens a connection. -/
  | connect
  /-- Declares an exchange. -/
  | exchange (name : String) (type : ExchangeType)
  /-- Declares a queue, with the exchange for its dead letters if there is one. -/
  | queue (name : String) (deadLetters : Option String)
  /-- Binds a queue to an exchange. -/
  | binding (queue exchange routingKey : String)
deriving DecidableEq, Repr

/-- What a request asks for, as messages show it. -/
def BrokerRequest.describe : BrokerRequest → String
  | connect => "connection"
  | exchange name _ => "exchange '" ++ name ++ "'"
  | queue name _ => "queue '" ++ name ++ "'"
  | binding source target _ => "binding '" ++ source ++ "' -> '" ++ target ++ "'"

/-- Why a connector is not made. -/
inductive RabbitError where
  /-- A value of the configuration is refused. -/
  | bind (error : BindError)
  /-- An option is out of its range. -/
  | invalidOption (option reason : String)
  /-- There is no connection factory. -/
  | missingConnectionFactory
  /-- The broker is not reached. -/
  | connection (cause : String)
  /-- A declaration failed. -/
  | declaration (subject cause : String)
deriving DecidableEq, Repr

/-- The wording of an error. -/
def RabbitError.message : RabbitError → String
  | bind error => error.message
  | invalidOption option reason => "option '" ++ option ++ "' " ++ reason
  | missingConnectionFactory =>
    "no ConnectionFactory available: set 'connectionFactory' or register exactly one factory bean"
  | connection _ => "cannot connect to the broker"
  | declaration subject _ => "failed to declare " ++ subject

/-- The declarations for dead letters. -/
def DeadLetter.plan (letters : DeadLetter) : List BrokerRequest :=
  .exchange letters.exchange letters.exchangeType ::
    match letters.queue with
    | none => []
    | some queue =>
      [.queue queue none, .binding queue letters.exchange (letters.routingKey.getD queue)]

/-- All declarations, in order. -/
def plan (settings : Settings) : List BrokerRequest :=
  .exchange settings.exchangeName settings.exchangeType ::
    (settings.deadLetter.elim [] DeadLetter.plan
      ++ settings.queues.flatMap fun queue ↦
        [.queue queue (settings.deadLetter.map (·.exchange)),
          .binding queue settings.exchangeName (settings.routingKey.getD "")])

/-- Puts declarations to the broker, one after another. -/
def declareAll {σ : Type} (answer : BrokerRequest → σ → Except String Unit × σ) (tolerant : Bool) :
    List BrokerRequest → Session BrokerRequest σ (Except RabbitError Unit)
  | [] => pure (.ok ())
  | request :: rest => do
    match ← Session.ask answer request with
    | .ok () => declareAll answer tolerant rest
    | .error cause =>
      if tolerant then
        Session.ofLogged (.report (.warn ("Failed to declare " ++ request.describe ++ ", ignoring")
          [("error", cause)]))
        declareAll answer tolerant rest
      else
        return .error (.declaration request.describe cause)

/-- Declares what the settings call for. -/
def declare {σ : Type} (answer : BrokerRequest → σ → Except String Unit × σ)
    (settings : Settings) : Session BrokerRequest σ (Except RabbitError Unit) :=
  declareAll answer settings.ignoreDeclarationExceptions (plan settings)

end Connectors.Rabbit
