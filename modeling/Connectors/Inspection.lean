import Connectors.Application

/-!
# Endpoints as data

What a live endpoint is and does can be looked at as data: the settings it was made with, what it
consumes at the moment, and what it will ask for next. Names of fields are those that an operator
knows from the settings, and spans of time are in milliseconds.

The data is complete, so the credentials in it are not masked. Their masked diagnostic form stands
beside them.
-/

set_option autoImplicit false
set_option relaxedAutoImplicit false

namespace Connectors

namespace Datum

/-- A table from its fields. -/
def ofFields (fields : List (String × Datum)) : Datum := .table (Fields.ofList fields)

/-- A list of texts. -/
def ofTexts (texts : List String) : Datum := .list (texts.map .text)

/-- A natural number. -/
def ofNat (value : Nat) : Datum := .int value

/-- A value that may be absent. -/
def ofOption {α : Type} (write : α → Datum) (value : Option α) : Datum := value.elim .null write

end Datum

open Datum (ofFields ofTexts ofNat ofOption ofText?)

/-! ### Kinesis -/

namespace Kinesis

/-- The name of a strategy. -/
def ShardClosedStrategy.name : ShardClosedStrategy → String
  | ignore => "Ignore"
  | silent => "Silent"
  | fail => "Fail"

/-- The name of a protocol. -/
def ProxyProtocol.name : ProxyProtocol → String
  | http => "Http"
  | https => "Https"

/-- Credentials as data. -/
def Credentials.datum : Credentials → Datum
  | fromClient => ofFields [("type", .text "FromClient")]
  | defaultProvider => ofFields [("type", .text "DefaultProvider")]
  | profile name => ofFields [("type", .text "Profile"), ("name", ofText? name)]
  | static accessKey secretKey sessionToken =>
    ofFields [("type", .text "Static"), ("access_key", .text accessKey),
      ("secret_key", .text secretKey), ("session_token", ofText? sessionToken)]

/-- A proxy as data. -/
def ProxySettings.datum (proxy : ProxySettings) : Datum :=
  ofFields [("host", .text proxy.host), ("port", .int proxy.port),
    ("protocol", .text proxy.protocol.name)]

/-- Settings as data. -/
def Settings.datum (settings : Settings) : Datum :=
  ofFields
    [("stream_name", .text settings.streamName), ("region", ofText? settings.region),
      ("endpoint_override", ofText? settings.endpointOverride),
      ("cbor_enabled", .bool settings.cborEnabled),
      ("iterator_type", .text settings.iteratorType.constant),
      ("sequence_number", ofText? settings.sequenceNumber),
      ("message_timestamp", ofText? settings.messageTimestamp),
      ("max_results_per_request", .int settings.maxResultsPerRequest),
      ("shard_id", ofText? settings.shardId),
      ("shard_closed", .text settings.shardClosed.name),
      ("shard_monitor_interval_ms", ofOption ofNat settings.shardMonitorInterval),
      ("proxy", ofOption ProxySettings.datum settings.proxy),
      ("credentials", settings.credentials.datum),
      ("credentials_debug", .text settings.credentials.describe),
      ("trust_all_certificates", .bool settings.trustAllCertificates)]

/-- The shards of a consumer as fields. -/
def Watch.fields (watch : Watch) : List (String × Datum) :=
  [("shards", ofTexts watch.shards), ("failed", .bool watch.failed)]

end Kinesis

/-! ### RabbitMQ -/

namespace Rabbit

/-- Dead letter settings as data. -/
def DeadLetter.datum (letters : DeadLetter) : Datum :=
  ofFields [("exchange", .text letters.exchange),
    ("exchange_type", .text letters.exchangeType.constant), ("queue", ofText? letters.queue),
    ("routing_key", ofText? letters.routingKey)]

/-- Retry settings as data. -/
def RetrySettings.datum (retry : RetrySettings) : Datum :=
  ofFields [("max_attempts", .int retry.maxAttempts), ("delay_ms", ofNat retry.delay),
    ("reject_and_dont_requeue", .bool retry.rejectAndDontRequeue)]

/-- Settings as data. -/
def Settings.datum (settings : Settings) : Datum :=
  ofFields
    [("exchange_name", .text settings.exchangeName),
      ("exchange_type", .text settings.exchangeType.constant),
      ("routing_key", ofText? settings.routingKey), ("queues", ofTexts settings.queues),
      ("test_connection_on_startup", .bool settings.testConnectionOnStartup),
      ("auto_declare", .bool settings.autoDeclare), ("auto_startup", .bool settings.autoStartup),
      ("ignore_declaration_exceptions", .bool settings.ignoreDeclarationExceptions),
      ("concurrent_consumers", .int settings.concurrentConsumers),
      ("max_concurrent_consumers", ofOption .int settings.maxConcurrentConsumers),
      ("prefetch_count", .int settings.prefetchCount),
      ("shutdown_timeout_ms", ofNat settings.shutdownTimeout),
      ("reply_timeout_ms", ofNat settings.replyTimeout),
      ("dead_letter", ofOption DeadLetter.datum settings.deadLetter),
      ("retry", settings.retry.datum)]

end Rabbit

/-! ### Calendar -/

namespace Calendar

/-- The name of an order. -/
def EventOrder.name : EventOrder → String
  | startTime => "StartTime"
  | updated => "Updated"

/-- Credentials as data. -/
def Credentials.datum : Credentials → Datum
  | oauth clientId clientSecret refreshToken accessToken =>
    ofFields [("type", .text "OAuth"), ("client_id", .text clientId),
      ("client_secret", .text clientSecret), ("refresh_token", ofText? refreshToken),
      ("access_token", ofText? accessToken)]
  | serviceAccountKey key delegate =>
    ofFields [("type", .text "ServiceAccountKey"), ("key", .text key),
      ("delegate", ofText? delegate)]
  | p12 emailAddress p12FileName delegate =>
    ofFields [("type", .text "P12"), ("email_address", .text emailAddress),
      ("p12_file_name", .text p12FileName), ("delegate", ofText? delegate)]

/-- Settings as data. -/
def Settings.datum (settings : Settings) : Datum :=
  ofFields
    [("calendar_id", .text settings.calendarId),
      ("application_name", ofText? settings.applicationName), ("scopes", ofTexts settings.scopes),
      ("max_results", .int settings.maxResults), ("query", ofText? settings.query),
      ("consider_last_update", .bool settings.considerLastUpdate),
      ("consume_from_now", .bool settings.consumeFromNow), ("sync_flow", .bool settings.syncFlow),
      ("credentials", settings.credentials.datum),
      ("credentials_debug", .text settings.credentials.describe)]

/-- A query as data, which tells of the earliest time only whether there is one. -/
def Query.datum (query : Query) : Datum :=
  ofFields
    [("calendar_id", .text query.calendarId), ("max_results", .int query.maxResults),
      ("order_by", .text query.orderBy.name), ("query", ofText? query.query),
      ("has_time_min", .bool query.timeMin.isSome), ("updated_min", ofOption .int query.updatedMin),
      ("sync_token", ofText? query.syncToken)]

end Calendar

/-! ### All endpoints -/

/-- What an endpoint is and does. A client is only told to be there. -/
def Endpoint.datum : Endpoint → Datum
  | kinesis consumer =>
    ofFields (consumer.watch.fields ++ [("settings", consumer.settings.datum),
      ("client", .text (Text.openRecord Kinesis.clientType []))])
  | rabbit listener =>
    ofFields [("running", .bool listener.running), ("settings", listener.settings.datum),
      ("factory", .text (Text.openRecord Rabbit.factoryType []))]
  | calendar stream =>
    ofFields [("next_query", stream.nextQuery.datum), ("settings", stream.settings.datum)]
  | probe made => ofFields [("echo", .text made.uri), ("uri", .text made.uri)]

end Connectors
