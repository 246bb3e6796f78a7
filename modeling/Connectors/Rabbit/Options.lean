import Connectors.Schema.Basic

/-!
# Options of the RabbitMQ connector

What `spring-rabbitmq` declares: the exchange and queues, what is declared on the broker, how many
consumers there are, and what happens to messages that are not handled.
-/

set_option autoImplicit false
set_option relaxedAutoImplicit false

namespace Connectors.Rabbit

/-- The id of the component. -/
def componentId : String := "spring-rabbitmq"

/-- The type name under which connection factories are offered. -/
def factoryType : String := "ConnectionFactory"

/-- The concrete type of a connection factory. -/
def factoryConcreteType : String := "conflux_spring_rabbitmq::connection::ConnectionFactory"

/-- The constants of exchange types. -/
def exchangeTypes : List String := ["direct", "fanout", "headers", "topic"]

/-- An option that holds a truth value with a default. -/
def flag (name fallback : String) : OptionSpec :=
  { name, kind := .bool, fallback := some fallback }

/-- An option that holds an integer with a default. -/
def number (name fallback : String) : OptionSpec :=
  { name, kind := .int, fallback := some fallback }

/-- An option that holds a text. -/
def text (name : String) : OptionSpec :=
  { name, kind := .string }

/-- The options, in the order declared. -/
def options : List OptionSpec :=
  [(text "exchangeName").describedAs "Exchange to publish to or consume from",
    { name := "exchangeType", kind := .enum exchangeTypes, fallback := some "direct" },
    text "routingKey",
    { name := "queues"
      kind := .list
      description := some "Queues to consume, comma separated" },
    { name := "connectionFactory"
      kind := .object factoryType
      autowired := true
      description := some "Connection factory used for every broker connection" },
    (flag "testConnectionOnStartup" "false").describedAs
      "Open a connection on startup and fail fast if the broker is unreachable",
    (flag "autoDeclare" "false").describedAs
      "Declare exchanges, queues and bindings on startup",
    flag "autoStartup" "true",
    flag "bridgeErrorHandler" "false",
    number "concurrentConsumers" "1",
    { name := "maxConcurrentConsumers", kind := .int },
    text "deadLetterExchange",
    { name := "deadLetterExchangeType", kind := .enum exchangeTypes, fallback := some "direct" },
    text "deadLetterQueue",
    text "deadLetterRoutingKey",
    number "maximumRetryAttempts" "5",
    (number "prefetchCount" "250").describedAs
      "Messages the broker sends to a consumer ahead of acknowledgement",
    flag "rejectAndDontRequeue" "true",
    number "retryDelay" "1000",
    { name := "shutdownTimeout"
      kind := .long
      fallback := some "5000"
      description := some "Milliseconds to wait for in-flight messages on shutdown" },
    flag "lazyStartProducer" "false",
    { name := "replyTimeout", kind := .long, fallback := some "30000" },
    (flag "ignoreDeclarationExceptions" "false").describedAs
      "Log declaration failures instead of failing startup"]

/-- The schema before it is checked. -/
def draft : Draft :=
  { id := componentId, kind := .component, title := some "Spring RabbitMQ", options }

end Connectors.Rabbit
