import Connectors.Event

/-!
# Sessions with the outside world

A session is a computation that may put requests to something outside the program. How the outside
answers is not known to it: it is a function from a request and a hidden state to an answer and the
next state (`ask`), and every law of a session holds for all such functions.

What a session does is recorded in order, the requests as well as the events (`Session.Step`), so
that a law can speak of what was asked for before what.
-/

set_option autoImplicit false
set_option relaxedAutoImplicit false

namespace Connectors

/-- Something that a session does. -/
inductive Session.Step (κ : Type) where
  /-- It puts a request. -/
  | request (request : κ)
  /-- It reports an event. -/
  | event (event : Event)
deriving DecidableEq, Repr

/-- What comes out of a session. -/
structure Session.Outcome (κ σ α : Type) where
  /-- What was done, in order. -/
  steps : List (Session.Step κ)
  /-- The answer. -/
  value : α
  /-- The state the outside world is left in. -/
  world : σ

/-- A computation that puts requests of type `κ` to a world of type `σ`. -/
def Session (κ σ α : Type) : Type := σ → Session.Outcome κ σ α

namespace Session

variable {κ κ' σ α β ρ : Type}

instance : Monad (Session κ σ) where
  pure value := fun world ↦ ⟨[], value, world⟩
  bind first next := fun world ↦
    let one := first world
    let two := next one.value one.world
    ⟨one.steps ++ two.steps, two.value, two.world⟩

/-- Puts a request. -/
def ask (answer : κ → σ → ρ × σ) (request : κ) : Session κ σ ρ := fun world ↦
  let (reply, after) := answer request world
  ⟨[.request request], reply, after⟩

/-- Does what a computation without requests reports. -/
def ofLogged (logged : Logged α) : Session κ σ α := fun world ↦
  ⟨logged.events.map .event, logged.value, world⟩

/-- Renames the requests of a session. -/
def mapRequests (rename : κ → κ') (session : Session κ σ α) : Session κ' σ α := fun world ↦
  let outcome := session world
  ⟨outcome.steps.map fun
    | .request request => .request (rename request)
    | .event event => .event event,
    outcome.value, outcome.world⟩

/-- The requests put, in order. -/
def Outcome.requests (outcome : Outcome κ σ α) : List κ :=
  outcome.steps.filterMap fun
    | .request request => some request
    | .event _ => none

/-- The events reported, in order. -/
def Outcome.events (outcome : Outcome κ σ α) : List Event :=
  outcome.steps.filterMap fun
    | .request _ => none
    | .event event => some event

end Session

end Connectors
