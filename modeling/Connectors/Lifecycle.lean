import Connectors.Event
import Connectors.Number.Integer

/-!
# The life of a set of endpoints

A set of endpoints is started and stopped as a whole. While it runs it holds the endpoints; when it
does not run it holds none (`Lifecycle`).

A start has several activations under way at once. They may end in any order, and the outcome of
each is put at its own place (`Slots`); when all places are filled the start is concluded
(`conclude`). If every activation made its endpoint, these are the endpoints of the running set. If
any failed, each failure is reported, the first one is the answer, and the endpoints that were made
are handed back to be shut down.

A stop hands out the endpoints to be shut down and leaves the set empty before any of them is
(`Lifecycle.take`).
-/

set_option autoImplicit false
set_option relaxedAutoImplicit false

namespace Connectors

/-- A set of endpoints, each known by a handle of type `η`. -/
structure Lifecycle (η : Type) where
  /-- Whether it runs. -/
  running : Bool := false
  /-- The handles of its endpoints. -/
  endpoints : List η := []
  /-- How many sections the last successful start passed over. -/
  skipped : Nat := 0
deriving DecidableEq, Repr

/-- The outcomes of activations, as far as they have ended, each at its place. -/
abbrev Slots (ρ : Type) : Type := List (Option ρ)

namespace Slots

variable {ρ : Type}

/-- Places for a number of activations, none of which has ended. -/
def pending (count : Nat) : Slots ρ := List.replicate count none

/-- Puts an outcome at a place. -/
def fill (slots : Slots ρ) (place : Nat) (outcome : ρ) : Slots ρ :=
  slots.set place (some outcome)

/-- Puts outcomes at their places, in the order in which the activations end. -/
def fillAll (slots : Slots ρ) (ended : List (Nat × ρ)) : Slots ρ :=
  ended.foldl (fun slots outcome ↦ slots.fill outcome.1 outcome.2) slots

/-- The outcomes of activations that have all ended, by place. -/
def outcomes (slots : Slots ρ) : List ρ := slots.filterMap id

end Slots

namespace Lifecycle

variable {ε η : Type}

/-- The handles of the endpoints that were made. -/
def made (outcomes : List (Except ε η)) : List η :=
  outcomes.filterMap fun outcome ↦
    match outcome with
    | .ok handle => some handle
    | .error _ => none

/-- The failures, in order. -/
def failures (outcomes : List (Except ε η)) : List ε :=
  outcomes.filterMap fun outcome ↦
    match outcome with
    | .ok _ => none
    | .error error => some error

/-- A start that failed. -/
structure Abort (ε η : Type) where
  /-- The first failure. -/
  error : ε
  /-- The handles of the endpoints that were made all the same. -/
  abandoned : List η

/-- What a start makes of the outcomes of its activations. -/
def conclude (wording : ε → String) (outcomes : List (Except ε η)) :
    Logged (Except (Abort ε η) (List η)) :=
  match failures outcomes with
  | [] => ⟨[], .ok (made outcomes)⟩
  | first :: others =>
    ⟨(first :: others).map (fun error ↦
        .fail "Component activation failed" [("error", wording error)])
      ++ [.warn "Startup aborted, shutting down activated endpoints"
        [("active", Integer.write (made outcomes).length)]],
      .error ⟨first, made outcomes⟩⟩

/-- The set that runs with the endpoints of a start. -/
def started (endpoints : List η) (skipped : Nat) : Lifecycle η :=
  ⟨true, endpoints, skipped⟩

/-- Stops a set: the set that does not run, and the handles of the endpoints to shut down. A set
that does not run stays as it is. -/
def take (set : Lifecycle η) : Logged (Lifecycle η × List η) :=
  if set.running then ⟨[], { set with running := false, endpoints := [] }, set.endpoints⟩
  else ⟨[.warn "Runtime is not running" []], set, []⟩

end Lifecycle

end Connectors
