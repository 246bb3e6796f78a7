import Connectors.Activation

/-!
# Scripted services

In a rehearsal the services behind the connectors are played by scripts. A `Script` says how one
client answers, and keeps a record of every request that was put to it, refused ones included. The
scripts of all clients together (`Scripts`) are a state that the services are in, and
`Scripts.outside` is how they answer from it.
-/

set_option autoImplicit false
set_option relaxedAutoImplicit false

namespace Connectors.Rehearsal

/-- A request as a script records it. -/
inductive Request where
  /-- For the shards of a stream. -/
  | listing (stream : String)
  /-- To a broker. -/
  | broker (request : Rabbit.BrokerRequest)
  /-- For a calendar client. -/
  | client (request : Calendar.ClientRequest)
  /-- For a page of events. -/
  | query (query : Calendar.Query)
deriving DecidableEq, Repr

/-- A request to a broker as one line. -/
def brokerLine : Rabbit.BrokerRequest → String
  | .connect => "connect"
  | .exchange name type => "exchange " ++ name ++ " " ++ type.constant
  | .queue name none => "queue " ++ name
  | .queue name (some exchange) => "queue " ++ name ++ " dlx=" ++ exchange
  | .binding queue exchange routingKey =>
    "bind " ++ queue ++ " " ++ exchange ++ " '" ++ routingKey ++ "'"

/-- A request for the shards of a stream as one line. -/
def listingLine (stream : String) : String := "list " ++ stream

/-- How a client answers, and what it was asked. -/
structure Script where
  /-- The shards of every stream. -/
  shards : List String := []
  /-- What requests for shards and for calendar clients fail with. -/
  fault : Option String := none
  /-- How lines to a broker begin that fail, and with what. -/
  refusals : List (String × String) := []
  /-- The pages still to come, or what a request for one fails with. -/
  pages : List (Except String Calendar.Page) := []
  /-- The requests put since the record was last taken. -/
  record : List Request := []

namespace Script

/-- The script with a request recorded. -/
def note (script : Script) (request : Request) : Script :=
  { script with record := script.record ++ [request] }

/-- An answer, unless requests fail. -/
def unlessFault {α : Type} (script : Script) (answer : α) : Except String α :=
  match script.fault with
  | some text => .error text
  | none => .ok answer

/-- How a broker answers a request: it fails if its line has one of the beginnings, the first of
them counting. -/
def brokerAnswer (script : Script) (request : Rabbit.BrokerRequest) : Except String Unit :=
  match script.refusals.find? fun (beginning, _) ↦
      beginning.toList.isPrefixOf (brokerLine request).toList with
  | some (_, text) => .error text
  | none => .ok ()

/-- The next page and the script after it. After the last page come pages without events. -/
def nextPage (script : Script) : Except String Calendar.Page × Script :=
  match script.pages with
  | [] => (.ok ⟨[], none⟩, script)
  | page :: rest => (page, { script with pages := rest })

end Script

/-- The scripts of clients, by the identity of the object that stands for the client. -/
structure Scripts where
  /-- The scripts. -/
  scripts : List (Nat × Script) := []

namespace Scripts

/-- The script of a client. -/
def get (scripts : Scripts) (identity : Nat) : Script :=
  (scripts.scripts.lookup identity).getD {}

/-- The scripts with that of one client replaced. -/
def put (scripts : Scripts) (identity : Nat) (script : Script) : Scripts :=
  ⟨(identity, script) :: scripts.scripts.filter (·.1 ≠ identity)⟩

/-- The scripts with that of one client changed. -/
def modify (scripts : Scripts) (identity : Nat) (change : Script → Script) : Scripts :=
  scripts.put identity (change (scripts.get identity))

/-- How a request for shards is answered. -/
def answerListing (request : Kinesis.Listing) (scripts : Scripts) :
    Except String (List String) × Scripts :=
  let script := scripts.get request.client.identity
  (script.unlessFault script.shards,
    scripts.put request.client.identity (script.note (.listing request.stream)))

/-- How a request to a broker is answered. -/
def answerBroker (call : Rabbit.BrokerCall) (scripts : Scripts) : Except String Unit × Scripts :=
  let script := scripts.get call.factory.identity
  (script.brokerAnswer call.request,
    scripts.put call.factory.identity (script.note (.broker call.request)))

/-- How a request for a calendar client is answered. -/
def answerClient (request : Calendar.ClientRequest) (scripts : Scripts) :
    Except String Unit × Scripts :=
  let script := scripts.get request.factory.identity
  (script.unlessFault (), scripts.put request.factory.identity (script.note (.client request)))

/-- How a query is answered by the client that a factory made. -/
def answerQuery (factory : ObjectRef) (query : Calendar.Query) (scripts : Scripts) :
    Except String Calendar.Page × Scripts :=
  let (page, script) := ((scripts.get factory.identity).note (.query query)).nextPage
  (page, scripts.put factory.identity script)

/-- The services as the scripts play them. -/
def outside : Outside Scripts where
  kinesis := answerListing
  rabbit := answerBroker
  calendar := answerClient

end Scripts

end Connectors.Rehearsal
