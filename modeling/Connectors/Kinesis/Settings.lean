import Connectors.Binding.Bound
import Connectors.Kinesis.Options

/-!
# Settings of the Kinesis consumer

`Settings.ofBound` reads the settings from a configuration of `aws2-kinesis` and refuses one that
leaves out what another option calls for. Requirements are checked in a fixed order, and the first
one that is not met is reported as a missing option.

Credentials come from the first source that applies: the default provider, a named profile, static
keys, or the client itself (`Credentials.ofBound`).
-/

set_option autoImplicit false
set_option relaxedAutoImplicit false

namespace Connectors.Kinesis

/-! ### Constants -/

/-- Where reading a shard starts. -/
inductive IteratorType where
  /-- At the oldest record. -/
  | trimHorizon
  /-- After the newest record. -/
  | latest
  /-- At a time. -/
  | atTimestamp
  /-- After a sequence number. -/
  | afterSequenceNumber
  /-- At a sequence number. -/
  | atSequenceNumber
deriving DecidableEq, Repr

namespace IteratorType

/-- The constant of an iterator type. -/
def constant : IteratorType → String
  | trimHorizon => "TRIM_HORIZON"
  | latest => "LATEST"
  | atTimestamp => "AT_TIMESTAMP"
  | afterSequenceNumber => "AFTER_SEQUENCE_NUMBER"
  | atSequenceNumber => "AT_SEQUENCE_NUMBER"

/-- The iterator type of a constant. -/
def ofConstant? : String → Option IteratorType
  | "TRIM_HORIZON" => some trimHorizon
  | "LATEST" => some latest
  | "AT_TIMESTAMP" => some atTimestamp
  | "AFTER_SEQUENCE_NUMBER" => some afterSequenceNumber
  | "AT_SEQUENCE_NUMBER" => some atSequenceNumber
  | _ => none

/-- Whether a sequence number is needed. -/
def needsSequenceNumber : IteratorType → Bool
  | afterSequenceNumber | atSequenceNumber => true
  | _ => false

end IteratorType

/-- What happens when a shard that is consumed is closed. -/
inductive ShardClosedStrategy where
  /-- A warning is given. -/
  | ignore
  /-- Nothing is said. -/
  | silent
  /-- The consumer stops. -/
  | fail
deriving DecidableEq, Repr

/-- The strategy of a constant. -/
def ShardClosedStrategy.ofConstant? : String → Option ShardClosedStrategy
  | "ignore" => some ignore
  | "silent" => some silent
  | "fail" => some fail
  | _ => none

/-- How a proxy is reached. -/
inductive ProxyProtocol where
  /-- Without encryption. -/
  | http
  /-- With encryption. -/
  | https
deriving DecidableEq, Repr

/-- The protocol of a constant. -/
def ProxyProtocol.ofConstant? : String → Option ProxyProtocol
  | "HTTP" => some http
  | "HTTPS" => some https
  | _ => none

/-! ### Credentials -/

/-- Where the credentials of requests come from. -/
inductive Credentials where
  /-- From the client. -/
  | fromClient
  /-- From the default provider. -/
  | defaultProvider
  /-- From a profile. -/
  | profile (name : Option String)
  /-- From the configuration. -/
  | static (accessKey secretKey : String) (sessionToken : Option String)
deriving DecidableEq, Repr

namespace Credentials

/-- The diagnostic form of credentials, without their secrets. -/
def describe : Credentials → String
  | fromClient => "FromClient"
  | defaultProvider => "DefaultProvider"
  | profile name => "Profile(" ++ Text.quotedOption name ++ ")"
  | static _ _ sessionToken =>
    Text.record "Static"
      [("access_key", Text.quote redacted), ("secret_key", Text.quote redacted),
        ("session_token", Text.quotedOption (sessionToken.map fun _ ↦ redacted))]

/-- The static credentials of a configuration that calls for them. -/
def staticOfBound (config : Bound) (session : Bool) : Except BindError Credentials := do
  let accessKey ← (config.string? "accessKey").elim (.error (config.missing "accessKey")) .ok
  let secretKey ← (config.string? "secretKey").elim (.error (config.missing "secretKey")) .ok
  if session then
    let token ← (config.string? "sessionToken").elim (.error (config.missing "sessionToken")) .ok
    return .static accessKey secretKey (some token)
  else
    return .static accessKey secretKey none

/-- The credentials of a configuration. -/
def ofBound (config : Bound) : Except BindError Credentials :=
  if config.bool? "useDefaultCredentialsProvider" = some true then .ok .defaultProvider
  else if config.bool? "useProfileCredentialsProvider" = some true then
    .ok (.profile (config.string? "profileCredentialsName"))
  else
    let session := config.bool? "useSessionCredentials" = some true
    if (config.string? "accessKey").isNone ∧ (config.string? "secretKey").isNone ∧ ¬session then
      .ok .fromClient
    else staticOfBound config session

end Credentials

/-! ### Settings -/

/-- A proxy between the client and the service. -/
structure ProxySettings where
  /-- The host. -/
  host : String
  /-- The port. -/
  port : Int
  /-- How it is reached. -/
  protocol : ProxyProtocol
deriving DecidableEq, Repr

/-- The settings of a consumer. -/
structure Settings where
  /-- The stream to consume. -/
  streamName : String
  /-- The region of the client. -/
  region : Option String
  /-- The endpoint in place of the regional one. -/
  endpointOverride : Option String
  /-- Whether requests are encoded as CBOR. -/
  cborEnabled : Bool
  /-- Where reading a shard starts. -/
  iteratorType : IteratorType
  /-- The sequence number reading starts at or after. -/
  sequenceNumber : Option String
  /-- The time reading starts at. -/
  messageTimestamp : Option String
  /-- How many records a request may return. -/
  maxResultsPerRequest : Int
  /-- The only shard to consume. -/
  shardId : Option String
  /-- What happens when a shard is closed. -/
  shardClosed : ShardClosedStrategy
  /-- How many milliseconds lie between two listings of the shards, if they are watched. -/
  shardMonitorInterval : Option Nat
  /-- The proxy. -/
  proxy : Option ProxySettings
  /-- Where credentials come from. -/
  credentials : Credentials
  /-- Whether certificates are trusted without a check. -/
  trustAllCertificates : Bool
deriving DecidableEq, Repr

namespace Settings

/-- The endpoint override of a configuration. -/
def endpointOverrideOf (config : Bound) : Except BindError (Option String) :=
  if config.bool? "overrideEndpoint" = some true then
    match config.string? "uriEndpointOverride" with
    | some uri => .ok (some uri)
    | none => .error (config.missing "uriEndpointOverride")
  else .ok none

/-- The proxy of a configuration. -/
def proxyOf (config : Bound) : Except BindError (Option ProxySettings) :=
  match config.string? "proxyHost", config.int? "proxyPort" with
  | some host, some port => do
    let protocol ← config.parseEnum ProxyProtocol.ofConstant? "proxyProtocol"
    return some ⟨host, port, protocol.getD .https⟩
  | some _, none => .error (config.missing "proxyPort")
  | none, _ => .ok none

/-- The settings of a configuration. -/
def ofBound (config : Bound) : Except BindError Settings := do
  let streamName ← (config.string? "streamName").elim (.error (config.missing "streamName")) .ok
  let endpointOverride ← endpointOverrideOf config
  let iteratorType := (← config.parseEnum IteratorType.ofConstant? "iteratorType").getD .trimHorizon
  let sequenceNumber := config.string? "sequenceNumber"
  let messageTimestamp := config.string? "messageTimestamp"
  if iteratorType.needsSequenceNumber ∧ sequenceNumber.isNone then
    .error (config.missing "sequenceNumber")
  if iteratorType = .atTimestamp ∧ messageTimestamp.isNone then
    .error (config.missing "messageTimestamp")
  let proxy ← proxyOf config
  let shardClosed := (← config.parseEnum ShardClosedStrategy.ofConstant? "shardClosed").getD .ignore
  let credentials ← Credentials.ofBound config
  return {
    streamName
    region := config.string? "region"
    endpointOverride
    cborEnabled := (config.bool? "cborEnabled").getD true
    iteratorType
    sequenceNumber
    messageTimestamp
    maxResultsPerRequest := (config.int? "maxResultsPerRequest").getD 1
    shardId := config.string? "shardId"
    shardClosed
    shardMonitorInterval :=
      ((config.long? "shardMonitorInterval").filter (0 < ·)).map Int.toNat
    proxy
    credentials
    trustAllCertificates := (config.bool? "trustAllCertificates").getD false }

end Settings

end Connectors.Kinesis
