import Connectors.Inspection
import Connectors.Rehearsal.World

/-!
# Rehearsing an application

A `Deployment` is an application in a world, with the objects it finds there. It is started and
stopped as a whole, and single components can be activated beside it; those are held under a name
until they are shut down.

A start (`Deployment.start`) begins all activations in the order of their sections and then waits
for the last of them. The outcome of each is put at the place of its section as it ends.

What is live can be looked at as data, by the name it is held under or by its component
(`Deployment.inspect?`).
-/

set_option autoImplicit false
set_option relaxedAutoImplicit false

namespace Connectors.Rehearsal

/-- An application in a world. -/
structure Deployment where
  /-- The application. -/
  application : Application
  /-- The objects. -/
  beans : BeanRegistry := .empty
  /-- The scripted services by the names they were first given, by the identity of their object. -/
  players : List (String × Nat) := []
  /-- The endpoints that the application runs, by their handles. -/
  set : Lifecycle Nat := {}
  /-- The handles of the components activated beside it. -/
  held : List (String × Nat) := []
  /-- The world. -/
  world : World := {}

namespace Deployment

/-- The deployment in a changed world. -/
def inWorld (deployment : Deployment) (world : World) : Deployment :=
  { deployment with world }

/-! ### Start and stop -/

/-- Begins to activate sections, one after another. -/
def beginAll (deployment : Deployment) (sections : List ComponentSection) :
    List (Awaited (Except ActivationError Nat)) × World :=
  sections.foldl (fun (begun, world) chosen ↦
    let (made, world) := world.activate deployment.application.registry chosen.id chosen.rawValues
      deployment.beans.resolver
    (begun ++ [made], world)) ([], deployment.world)

/-- The outcomes of activations with their places, in the order in which they end. -/
def inOrderOfEnd {α : Type} (begun : List (Awaited α)) : List (Nat × α) :=
  ((begun.zipIdx).mergeSort fun one other ↦ one.1.wait ≤ other.1.wait).map fun (made, place) ↦
    (place, made.value)

/-- Starts the application. -/
def start (deployment : Deployment) : Except ApplicationError Unit × Deployment :=
  if deployment.set.running then (.error .alreadyRunning, deployment)
  else
    let pending := deployment.application.pending
    let deployment := deployment.inWorld (deployment.world.report pending.events)
    match pending.value with
    | .error error => (.error error, deployment)
    | .ok (sections, skipped) =>
      let (begun, world) := deployment.beginAll sections
      let world := world.pass ((begun.map (·.wait)).foldl max 0)
      let slots := (Slots.pending begun.length).fillAll (inOrderOfEnd begun)
      let concluded := Lifecycle.conclude ActivationError.message slots.outcomes
      let world := world.report concluded.events
      match concluded.value with
      | .error abort =>
        (.error (.activation abort.error), deployment.inWorld (world.shutDownAll abort.abandoned))
      | .ok handles => (.ok (), { deployment with world, set := .started handles skipped })

/-- Stops the application. -/
def stop (deployment : Deployment) : Deployment :=
  let taken := deployment.set.take
  let (set, handles) := taken.value
  { deployment with set, world := (deployment.world.report taken.events).shutDownAll handles }

/-- Lets time pass. -/
def pass (deployment : Deployment) (ms : Nat) : Deployment :=
  deployment.inWorld (deployment.world.pass ms)

/-- Starts the application, lets time pass and stops it. -/
def runFor (deployment : Deployment) (ms : Nat) : Except ApplicationError Unit × Deployment :=
  match deployment.start with
  | (.error error, deployment) => (.error error, deployment)
  | (.ok (), deployment) => (.ok (), (deployment.pass ms).stop)

/-- The figures of the application. -/
def stats (deployment : Deployment) : Stats :=
  deployment.application.stats deployment.set

/-! ### Components beside the application -/

/-- Activates a component and holds its handle under a name. What was held under it is let go of,
and lives on. -/
def activate (deployment : Deployment) (id : String) (raw : RawValues) (name : String) :
    Except ActivationError Nat × Deployment :=
  let (made, world) := deployment.world.activateAndWait deployment.application.registry id raw
    deployment.beans.resolver
  let deployment := deployment.inWorld world
  match made with
  | .error error => (.error error, deployment)
  | .ok handle =>
    (.ok handle,
      { deployment with held := (name, handle) :: deployment.held.filter (·.1 ≠ name) })

/-- Shuts down what is held under a name, if anything is. -/
def shutDown (deployment : Deployment) (name : String) :
    Option (Except String Unit) × Deployment :=
  match deployment.held.lookup name with
  | none => (none, deployment)
  | some handle =>
    let (outcome, world) := deployment.world.shutDown handle
    (some outcome, { deployment with world, held := deployment.held.filter (·.1 ≠ name) })

/-! ### Endpoints -/

/-- The first running endpoint of a component, in any spelling of its id. -/
def running? (deployment : Deployment) (component : String) : Option Nat :=
  deployment.set.endpoints.find? fun handle ↦
    (deployment.world.endpoint? handle).any fun activated ↦ Key.agree activated.component component

/-- What is held under a name if one is given, and else the first running endpoint of a
component. -/
def target? (deployment : Deployment) (name : Option String) (component : String) : Option Nat :=
  match name with
  | some name => deployment.held.lookup name
  | none => deployment.running? component

/-- The endpoint of a handle. -/
def endpoint? (deployment : Deployment) (handle : Nat) : Option Activated :=
  deployment.world.endpoint? handle

/-- The data of what is held under a name if one is given, and else of the first running endpoint of
a component. -/
def inspect? (deployment : Deployment) (name : Option String) (component : String) : Option Datum :=
  ((deployment.target? name component).bind deployment.endpoint?).map (·.endpoint.datum)

/-- Polls an endpoint, if it is a calendar stream. -/
def poll (deployment : Deployment) (handle : Nat) :
    Option (Except Calendar.CalendarError (List Calendar.CalendarEvent)) × Deployment :=
  match deployment.endpoint? handle with
  | some ⟨_, .calendar stream⟩ =>
    let (events, world) := deployment.world.poll handle stream
    (some events, deployment.inWorld world)
  | _ => (none, deployment)

/-- Lets an endpoint consume again, if it is a RabbitMQ connector. The answer is whether it does. -/
def resume (deployment : Deployment) (handle : Nat) : Option Bool × Deployment :=
  match deployment.endpoint? handle with
  | some ⟨_, .rabbit listener⟩ =>
    let listener := listener.resume
    (some listener.running,
      deployment.inWorld (deployment.world.putEndpoint handle (.rabbit listener)))
  | _ => (none, deployment)

/-! ### Objects and services -/

/-- Puts an object under a name. -/
def addBean (deployment : Deployment) (name : String) (object : ObjectRef) : Deployment :=
  { deployment with beans := deployment.beans.insert name object }

/-- Puts a scripted service under a name. -/
def addPlayer (deployment : Deployment) (name : String) (object : ObjectRef) (script : Script) :
    Deployment :=
  let world := deployment.world
  { deployment.addBean name object with
    players := (name, object.identity) :: deployment.players.filter (·.1 ≠ name)
    world := { world with services := world.services.put object.identity script } }

/-- Takes the object of a name away. A scripted service can still be reached by that name. -/
def removeBean (deployment : Deployment) (name : String) : Option ObjectRef × Deployment :=
  (deployment.beans.lookup name, { deployment with beans := deployment.beans.remove name })

/-- Changes the script of a service. -/
def direct (deployment : Deployment) (name : String) (change : Script → Script) : Deployment :=
  match deployment.players.lookup name with
  | none => deployment
  | some identity =>
    let world := deployment.world
    deployment.inWorld { world with services := world.services.modify identity change }

/-- Takes the record of a service. -/
def takeRecord (deployment : Deployment) (name : String) : Option (List Request) × Deployment :=
  match deployment.players.lookup name with
  | none => (none, deployment)
  | some identity =>
    (some (deployment.world.services.get identity).record,
      deployment.direct name fun script ↦ { script with record := [] })

/-- Takes the addresses of the probes shut down. -/
def takeClosed (deployment : Deployment) : List String × Deployment :=
  let world := deployment.world
  (world.closed, deployment.inWorld { world with closed := [] })

/-- Takes the events. -/
def takeEvents (deployment : Deployment) : List Event × Deployment :=
  let (events, world) := deployment.world.takeEvents
  (events, deployment.inWorld world)

end Deployment

end Connectors.Rehearsal
