/-!
# Events

While the library works it reports what an operator should see: warnings and errors, each with a
message and named details (`Event`). A computation that reports returns its events beside its answer
(`Logged`), in the order in which they arose, and has no other effect.
-/

set_option autoImplicit false
set_option relaxedAutoImplicit false

namespace Connectors

/-- How serious an event is. -/
inductive Severity where
  /-- Something is odd and work goes on. -/
  | warning
  /-- Something failed. -/
  | error
deriving DecidableEq, Repr

/-- Something an operator should see. -/
structure Event where
  /-- How serious it is. -/
  severity : Severity
  /-- What happened. -/
  message : String
  /-- The details, by name. -/
  details : List (String × String)
deriving DecidableEq, Repr

/-- A warning. -/
def Event.warn (message : String) (details : List (String × String)) : Event :=
  ⟨.warning, message, details⟩

/-- A failure. -/
def Event.fail (message : String) (details : List (String × String)) : Event :=
  ⟨.error, message, details⟩

/-- An answer with the events that arose on the way to it. -/
structure Logged (α : Type) where
  /-- The events, in order. -/
  events : List Event
  /-- The answer. -/
  value : α

namespace Logged

variable {α β : Type}

/-- Applies a function to the answer. -/
def map (f : α → β) (logged : Logged α) : Logged β :=
  ⟨logged.events, f logged.value⟩

instance : Monad Logged where
  pure value := ⟨[], value⟩
  bind first next :=
    let second := next first.value
    ⟨first.events ++ second.events, second.value⟩

/-- Reports one event. -/
def report (event : Event) : Logged Unit :=
  ⟨[event], ()⟩

end Logged

end Connectors
