import Connectors.Rehearsal.Script

/-!
# A world to rehearse in

The world of a rehearsal has a clock that stands still unless something waits, scripted services,
and the endpoints that are live in it. Every Kinesis consumer that watches its shards has a
`Monitor`, which lists them again at fixed intervals from the moment the consumer was made.

While `ms` milliseconds pass (`World.pass`) the monitors tick whose time comes before the end of
that span. One whose time is exactly the end ticks when time passes next: whoever waited for the end
goes on before it. Of monitors whose time is the same, the one goes first that was set first.
-/

set_option autoImplicit false
set_option relaxedAutoImplicit false

namespace Connectors.Rehearsal

/-- What lists the shards of a consumer again. -/
structure Monitor where
  /-- The handle of the consumer. -/
  handle : Nat
  /-- How many milliseconds lie between two ticks. -/
  every : Nat
  /-- The time of the next tick. -/
  due : Nat
  /-- Whether the next tick only sets the clock going and lists nothing. -/
  fresh : Bool
deriving DecidableEq, Repr

/-- The world of a rehearsal. -/
structure World where
  /-- The milliseconds since the beginning. -/
  now : Nat := 0
  /-- The services. -/
  services : Scripts := {}
  /-- The live endpoints, by their handles. -/
  endpoints : List (Nat × Activated) := []
  /-- The next handle. -/
  nextHandle : Nat := 0
  /-- The monitors, in the order in which they were set. -/
  monitors : List Monitor := []
  /-- The addresses of the probes that were shut down, since last asked. -/
  closed : List String := []
  /-- The events since last asked. -/
  events : List Event := []

namespace World

/-- The endpoint of a handle. -/
def endpoint? (world : World) (handle : Nat) : Option Activated :=
  world.endpoints.lookup handle

/-- The world with one endpoint replaced. -/
def putEndpoint (world : World) (handle : Nat) (endpoint : Endpoint) : World :=
  { world with
    endpoints := world.endpoints.map fun (other, activated) ↦
      if other = handle then (other, { activated with endpoint }) else (other, activated) }

/-- The world after a report. -/
def report (world : World) (events : List Event) : World :=
  { world with events := world.events ++ events }

/-- Takes the events. -/
def takeEvents (world : World) : List Event × World :=
  (world.events, { world with events := [] })

/-! ### Monitors -/

/-- The monitors of an endpoint that has just been made. -/
def monitorsOf (now handle : Nat) : Endpoint → List Monitor
  | .kinesis consumer =>
    match consumer.settings.shardMonitorInterval with
    | some every => [⟨handle, every, now, true⟩]
    | none => []
  | _ => []

/-- The world without the monitor of an endpoint. -/
def unwatch (world : World) (handle : Nat) : World :=
  { world with monitors := world.monitors.filter (·.handle ≠ handle) }

/-- The world after a monitor has been set anew, behind all others. -/
def setAgain (world : World) (monitor : Monitor) : World :=
  let unwatched := world.unwatch monitor.handle
  { unwatched with
    monitors :=
      unwatched.monitors ++ [{ monitor with due := monitor.due + monitor.every, fresh := false }] }

/-- Lists the shards of a consumer again. -/
def relist (world : World) (handle : Nat) (consumer : Kinesis.Consumer) :
    Kinesis.Consumer × World :=
  let (listing, services) :=
    Scripts.answerListing ⟨consumer.client, consumer.settings.streamName⟩ world.services
  let observed := consumer.watch.observe consumer.settings listing
  let consumer := { consumer with watch := observed.value }
  (consumer,
    ({ world with services }.report observed.events).putEndpoint handle (.kinesis consumer))

/-- The world after a tick. The monitor of a consumer that has failed is not set again. -/
def tick (world : World) (monitor : Monitor) : World :=
  if monitor.fresh then world.setAgain monitor
  else match world.endpoint? monitor.handle with
    | some ⟨_, .kinesis consumer⟩ =>
      let (consumer, world) := world.relist monitor.handle consumer
      if consumer.watch.failed then world.unwatch monitor.handle else world.setAgain monitor
    | _ => world.unwatch monitor.handle

/-- The earliest of some monitors, the first of several counting. -/
def earliest? : List Monitor → Option Monitor
  | [] => none
  | monitor :: rest =>
    match earliest? rest with
    | none => some monitor
    | some other => if other.due < monitor.due then some other else some monitor

/-- Lets monitors tick whose time comes before `bound`, at most as many as there are steps. -/
def tickAll (bound : Nat) : Nat → World → World
  | 0, world => world
  | steps + 1, world =>
    match earliest? world.monitors with
    | none => world
    | some monitor =>
      if monitor.due < bound then tickAll bound steps (world.tick monitor) else world

/-- Lets time pass. Each monitor ticks at most once in a millisecond. -/
def pass (world : World) (ms : Nat) : World :=
  let bound := world.now + ms
  { tickAll bound (ms * world.monitors.length) world with now := bound }

/-! ### Endpoints -/

/-- The world with an endpoint that has just been made, and its handle. -/
def keep (world : World) (activated : Activated) : Nat × World :=
  let handle := world.nextHandle
  (handle, { world with
    endpoints := world.endpoints ++ [(handle, activated)]
    nextHandle := handle + 1
    monitors := world.monitors ++ monitorsOf world.now handle activated.endpoint })

/-- Begins to activate a component. What it asks of the services and what it reports happens at
once; its handle, or why there is none, is there after a time. -/
def activate (world : World) (registry : Registry Factory) (id : String) (raw : RawValues)
    (resolver : Resolver) : Awaited (Except ActivationError Nat) × World :=
  let outcome := registry.activate Scripts.outside world.now id raw resolver world.services
  let world := { world with services := outcome.world }.report outcome.events
  match outcome.value.value with
  | .error error => (⟨outcome.value.wait, .error error⟩, world)
  | .ok activated =>
    let (handle, world) := world.keep activated
    (⟨outcome.value.wait, .ok handle⟩, world)

/-- Activates a component and waits for the outcome. -/
def activateAndWait (world : World) (registry : Registry Factory) (id : String) (raw : RawValues)
    (resolver : Resolver) : Except ActivationError Nat × World :=
  let (made, world) := world.activate registry id raw resolver
  (made.value, world.pass made.wait)

/-- Shuts an endpoint down. Afterwards it is gone. -/
def shutDown (world : World) (handle : Nat) : Except String Unit × World :=
  let gone := { world.unwatch handle with endpoints := world.endpoints.filter (·.1 ≠ handle) }
  match world.endpoint? handle with
  | some ⟨_, .probe probe⟩ =>
    (probe.shutdownFault.elim (.ok ()) .error, { gone with closed := world.closed ++ [probe.uri] })
  | _ => (.ok (), gone)

/-- Shuts endpoints down, one after another, and reports what fails. -/
def shutDownAll (world : World) (handles : List Nat) : World :=
  handles.foldl (fun world handle ↦
    match world.endpoint? handle, world.shutDown handle with
    | some activated, (.error text, after) =>
      after.report [.fail "Error during endpoint shutdown"
        [("component", activated.component), ("uri", activated.endpoint.uri), ("error", text)]]
    | _, (_, after) => after) world

/-- Polls a calendar stream. -/
def poll (world : World) (handle : Nat) (stream : Calendar.Stream) :
    Except Calendar.CalendarError (List Calendar.CalendarEvent) × World :=
  let (page, services) := Scripts.answerQuery stream.factory stream.nextQuery world.services
  let (stream, events) := stream.receive page
  (events, { world with services }.putEndpoint handle (.calendar stream))

end World

end Connectors.Rehearsal
