import Connectors.Kinesis.Settings
import Connectors.Session

/-!
# The Kinesis consumer

A consumer is made in two parts. `prepare` reads the settings and finds the client, without any
request. `select` then takes the first listing of the stream's shards and settles which of them are
consumed; `start` puts the one request between them.

While a consumer lives its shards are listed again from time to time (`Watch.observe`). Shards that
are gone are closed and, unless a single shard was asked for, new ones are taken up. What a closed
shard means is for the settings to say: with the strategy `fail` the consumer fails, once and for
all, and its shards stay as they are from then on.
-/

set_option autoImplicit false
set_option relaxedAutoImplicit false

namespace Connectors.Kinesis

/-- Why a consumer is not made. -/
inductive KinesisError where
  /-- A value of the configuration is refused. -/
  | bind (error : BindError)
  /-- An option is out of its range. -/
  | invalidOption (option reason : String)
  /-- There is no client. -/
  | missingClient
  /-- The shard asked for is not there. -/
  | unknownShard (stream shard : String)
  /-- A request failed. -/
  | client (cause : String)
deriving DecidableEq, Repr

/-- The wording of an error. -/
def KinesisError.message : KinesisError → String
  | bind error => error.message
  | invalidOption option reason => "option '" ++ option ++ "' " ++ reason
  | missingClient =>
    "no KinesisClient available: set 'amazonKinesisClient' or register exactly one client bean"
  | unknownShard stream shard => "shard '" ++ shard ++ "' not found in stream '" ++ stream ++ "'"
  | client _ => "Kinesis request failed"

/-- A request for the shards of a stream. -/
structure Listing where
  /-- The client it is put to. -/
  client : ObjectRef
  /-- The stream. -/
  stream : String
deriving DecidableEq, Repr

/-- The shards that are consumed. -/
structure Watch where
  /-- The shards, in the order taken up. -/
  shards : List String
  /-- Whether the consumer has failed. -/
  failed : Bool
deriving DecidableEq, Repr

/-- A live consumer. -/
structure Consumer where
  /-- Its settings. -/
  settings : Settings
  /-- Its client. -/
  client : ObjectRef
  /-- Its shards. -/
  watch : Watch
deriving DecidableEq, Repr

/-! ### Start -/

/-- The most records that a request may return. -/
def maxRecordsPerRequest : Int := 10000

/-- What is settled before the first request: the settings and the client. -/
def prepare (config : Bound) : Except KinesisError (Settings × ObjectRef) :=
  match Settings.ofBound config with
  | .error error => .error (.bind error)
  | .ok settings =>
    if ¬(1 ≤ settings.maxResultsPerRequest ∧ settings.maxResultsPerRequest ≤ maxRecordsPerRequest)
    then .error (.invalidOption "maxResultsPerRequest" "must be between 1 and 10000")
    else match config.requireObject clientConcreteType "amazonKinesisClient" with
      | .error error => .error (.bind error)
      | .ok none => .error .missingClient
      | .ok (some client) => .ok (settings, client)

/-- The consumer that the first listing leads to. -/
def select (settings : Settings) (client : ObjectRef) (listing : Except String (List String)) :
    Except KinesisError Consumer :=
  match listing with
  | .error cause => .error (.client cause)
  | .ok listed =>
    match settings.shardId with
    | none => .ok ⟨settings, client, ⟨listed, false⟩⟩
    | some shard =>
      if listed.contains shard then .ok ⟨settings, client, ⟨[shard], false⟩⟩
      else .error (.unknownShard settings.streamName shard)

/-- Makes a consumer. -/
def start {σ : Type} (answer : Listing → σ → Except String (List String) × σ) (config : Bound) :
    Session Listing σ (Except KinesisError Consumer) :=
  match prepare config with
  | .error error => pure (.error error)
  | .ok (settings, client) => do
    let listing ← Session.ask answer ⟨client, settings.streamName⟩
    return select settings client listing

/-! ### Watching the shards -/

namespace Watch

/-- Takes up the listed shards that are not consumed yet, each once and in the order listed. -/
def takeUp (shards : List String) : List String → List String
  | [] => shards
  | shard :: rest =>
    if shards.contains shard then takeUp shards rest else takeUp (shards ++ [shard]) rest

/-- The shards consumed after a listing. -/
def refreshed (watch : Watch) (followNew : Bool) (listed : List String) : List String :=
  let kept := watch.shards.filter listed.contains
  if followNew then takeUp kept listed else kept

/-- The consumed shards that a listing lacks. -/
def closed (watch : Watch) (listed : List String) : List String :=
  watch.shards.filter fun shard ↦ !listed.contains shard

/-- What a listing changes. A consumer that has failed takes no notice of it. -/
def observe (settings : Settings) (watch : Watch) (listing : Except String (List String)) :
    Logged Watch :=
  let stream := settings.streamName
  if watch.failed then ⟨[], watch⟩
  else match listing with
    | .error cause =>
      ⟨[.warn "Failed to refresh shard list" [("stream", stream), ("error", cause)]], watch⟩
    | .ok listed =>
      let shards := watch.refreshed settings.shardId.isNone listed
      match settings.shardClosed, watch.closed listed with
      | .ignore, closed =>
        ⟨closed.map fun shard ↦
          .warn "Shard closed, ignoring it" [("stream", stream), ("shard", shard)],
          ⟨shards, false⟩⟩
      | .silent, _ => ⟨[], ⟨shards, false⟩⟩
      | .fail, [] => ⟨[], ⟨shards, false⟩⟩
      | .fail, shard :: _ =>
        ⟨[.fail "Shard closed, stopping consumer" [("stream", stream), ("shard", shard)]],
          ⟨shards, true⟩⟩

end Watch

/-- The address of a consumer. -/
def Consumer.uri (consumer : Consumer) : String :=
  componentId ++ ":" ++ consumer.settings.streamName

end Connectors.Kinesis
