import Connectors.Schema.Basic

/-!
# Options of the Kinesis consumer

What `aws2-kinesis` declares: the stream and where to read it, how its shards are watched, and how
requests reach the service.
-/

set_option autoImplicit false
set_option relaxedAutoImplicit false

namespace Connectors.Kinesis

/-- The id of the component. -/
def componentId : String := "aws2-kinesis"

/-- The type name under which clients are offered. -/
def clientType : String := "KinesisClient"

/-- The concrete type of a client. -/
def clientConcreteType : String := "conflux_aws2_kinesis::client::KinesisClient"

/-- An option that holds a truth value with a default. -/
def flag (name fallback : String) : OptionSpec :=
  { name, kind := .bool, fallback := some fallback }

/-- An option that holds a text. -/
def text (name : String) : OptionSpec :=
  { name, kind := .string }

/-- The options, in the order declared. -/
def options : List OptionSpec :=
  [(text "streamName").describedAs "Name of the stream to consume",
    (flag "cborEnabled" "true").describedAs "Use CBOR encoding for requests",
    (text "region").describedAs "Region the Kinesis client works in",
    (flag "overrideEndpoint" "false").describedAs
      "Send requests to 'uriEndpointOverride' instead of the regional endpoint",
    (text "uriEndpointOverride").describedAs
      "Endpoint URI used when 'overrideEndpoint' is set",
    { name := "iteratorType"
      kind := .enum ["TRIM_HORIZON", "LATEST", "AT_TIMESTAMP", "AFTER_SEQUENCE_NUMBER",
        "AT_SEQUENCE_NUMBER"]
      fallback := some "TRIM_HORIZON"
      description := some "Where to start reading a shard" },
    { name := "maxResultsPerRequest"
      kind := .int
      fallback := some "1"
      description := some "Maximum number of records per request" },
    (text "messageTimestamp").describedAs "Start timestamp for the AT_TIMESTAMP iterator",
    (text "sequenceNumber").describedAs
      "Start sequence number for the *_SEQUENCE_NUMBER iterators",
    { name := "shardClosed"
      kind := .enum ["ignore", "fail", "silent"]
      fallback := some "ignore"
      description := some "What to do when a consumed shard is closed" },
    (text "shardId").describedAs "Consume a single shard instead of all",
    { name := "shardMonitorInterval"
      kind := .long
      fallback := some "10000"
      description := some "Interval in milliseconds between shard list refreshes, 0 disables" },
    flag "bridgeErrorHandler" "false",
    flag "lazyStartProducer" "false",
    { name := "amazonKinesisClient"
      kind := .object clientType
      autowired := true
      description := some "Client used for every Kinesis request" },
    flag "healthCheckConsumerEnabled" "true",
    flag "healthCheckProducerEnabled" "true",
    text "proxyHost",
    { name := "proxyPort", kind := .int },
    { name := "proxyProtocol", kind := .enum ["HTTP", "HTTPS"], fallback := some "HTTPS" },
    (text "accessKey").asSecret,
    (text "secretKey").asSecret,
    (text "sessionToken").asSecret,
    text "profileCredentialsName",
    flag "trustAllCertificates" "false",
    flag "useDefaultCredentialsProvider" "false",
    flag "useProfileCredentialsProvider" "false",
    flag "useSessionCredentials" "false"]

/-- The schema before it is checked. -/
def draft : Draft :=
  { id := componentId, kind := .component, title := some "AWS Kinesis", options }

end Connectors.Kinesis
