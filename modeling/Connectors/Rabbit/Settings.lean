import Connectors.Binding.Bound
import Connectors.Rabbit.Options

/-!
# Settings of the RabbitMQ connector

`Settings.ofBound` reads the settings from a configuration of `spring-rabbitmq`. An exchange is
needed, and a dead letter queue or routing key needs a dead letter exchange. Spans of time that are
negative count as none.

`Settings.fault?` goes on to check what the broker's protocol allows.
-/

set_option autoImplicit false
set_option relaxedAutoImplicit false

namespace Connectors.Rabbit

/-- How an exchange hands messages on. -/
inductive ExchangeType where
  /-- By the routing key. -/
  | direct
  /-- To every queue. -/
  | fanout
  /-- By the headers of a message. -/
  | headers
  /-- By a pattern of the routing key. -/
  | topic
deriving DecidableEq, Repr

namespace ExchangeType

/-- The constant of an exchange type. -/
def constant : ExchangeType → String
  | direct => "direct"
  | fanout => "fanout"
  | headers => "headers"
  | topic => "topic"

/-- The exchange type of a constant. -/
def ofConstant? : String → Option ExchangeType
  | "direct" => some direct
  | "fanout" => some fanout
  | "headers" => some headers
  | "topic" => some topic
  | _ => none

end ExchangeType

/-- Where messages go that are not handled. -/
structure DeadLetter where
  /-- The exchange they go to. -/
  exchange : String
  /-- Its type. -/
  exchangeType : ExchangeType
  /-- The queue that keeps them. -/
  queue : Option String
  /-- The routing key they go by. -/
  routingKey : Option String
deriving DecidableEq, Repr

/-- How often a message is tried again. -/
structure RetrySettings where
  /-- How many times at most. -/
  maxAttempts : Int
  /-- How many milliseconds lie between two times. -/
  delay : Nat
  /-- Whether a message that fails for good is not queued again. -/
  rejectAndDontRequeue : Bool
deriving DecidableEq, Repr

/-- The settings of a connector. -/
structure Settings where
  /-- The exchange. -/
  exchangeName : String
  /-- Its type. -/
  exchangeType : ExchangeType
  /-- The routing key of the queues. -/
  routingKey : Option String
  /-- The queues to consume. -/
  queues : List String
  /-- Whether a connection is tried at the start. -/
  testConnectionOnStartup : Bool
  /-- Whether exchanges, queues and bindings are declared at the start. -/
  autoDeclare : Bool
  /-- Whether consuming begins at the start. -/
  autoStartup : Bool
  /-- Whether a declaration may fail. -/
  ignoreDeclarationExceptions : Bool
  /-- How many consumers there are. -/
  concurrentConsumers : Int
  /-- How many consumers there may be. -/
  maxConcurrentConsumers : Option Int
  /-- How many messages are sent ahead. -/
  prefetchCount : Int
  /-- How many milliseconds a shutdown waits. -/
  shutdownTimeout : Nat
  /-- How many milliseconds a reply is waited for. -/
  replyTimeout : Nat
  /-- Where messages go that are not handled. -/
  deadLetter : Option DeadLetter
  /-- How often a message is tried again. -/
  retry : RetrySettings
deriving DecidableEq, Repr

namespace Settings

/-- The dead letter settings of a configuration. -/
def deadLetterOf (config : Bound) : Except BindError (Option DeadLetter) :=
  let queue := config.string? "deadLetterQueue"
  let routingKey := config.string? "deadLetterRoutingKey"
  match config.string? "deadLetterExchange" with
  | some exchange => do
    let exchangeType ← config.parseEnum ExchangeType.ofConstant? "deadLetterExchangeType"
    return some ⟨exchange, exchangeType.getD .direct, queue, routingKey⟩
  | none =>
    if queue.isSome ∨ routingKey.isSome then .error (config.missing "deadLetterExchange")
    else .ok none

/-- The settings of a configuration. A negative integer becomes zero as a natural number. -/
def ofBound (config : Bound) : Except BindError Settings := do
  let exchangeName ←
    (config.string? "exchangeName").elim (.error (config.missing "exchangeName")) .ok
  let deadLetter ← deadLetterOf config
  let exchangeType := (← config.parseEnum ExchangeType.ofConstant? "exchangeType").getD .direct
  return {
    exchangeName
    exchangeType
    routingKey := config.string? "routingKey"
    queues := (config.list? "queues").getD []
    testConnectionOnStartup := (config.bool? "testConnectionOnStartup").getD false
    autoDeclare := (config.bool? "autoDeclare").getD false
    autoStartup := (config.bool? "autoStartup").getD true
    ignoreDeclarationExceptions := (config.bool? "ignoreDeclarationExceptions").getD false
    concurrentConsumers := (config.int? "concurrentConsumers").getD 1
    maxConcurrentConsumers := config.int? "maxConcurrentConsumers"
    prefetchCount := (config.int? "prefetchCount").getD 250
    shutdownTimeout := ((config.long? "shutdownTimeout").getD 5000).toNat
    replyTimeout := ((config.long? "replyTimeout").getD 30000).toNat
    deadLetter
    retry :=
      { maxAttempts := (config.int? "maximumRetryAttempts").getD 5
        delay := ((config.int? "retryDelay").getD 1000).toNat
        rejectAndDontRequeue := (config.bool? "rejectAndDontRequeue").getD true } }

/-- The most messages that may be sent ahead. -/
def maxPrefetch : Int := 65535

/-- The option that is out of its range, if one is, and what is asked of it. -/
def fault? (settings : Settings) : Option (String × String) :=
  if ¬(0 ≤ settings.prefetchCount ∧ settings.prefetchCount ≤ maxPrefetch) then
    some ("prefetchCount", "must be between 0 and " ++ Integer.write maxPrefetch)
  else if settings.concurrentConsumers < 1 then
    some ("concurrentConsumers", "must be at least 1")
  else match settings.maxConcurrentConsumers with
    | some most =>
      if most < settings.concurrentConsumers then
        some ("maxConcurrentConsumers", "must not be lower than concurrentConsumers ("
          ++ Integer.write settings.concurrentConsumers ++ ")")
      else none
    | none => none

end Settings

end Connectors.Rabbit
