import Connectors.Application
import Mathlib.Data.List.Basic

/-!
# Starts and stops at the same time

A set of endpoints is started and stopped by calls that may be under way at the same time. A lock
keeps them apart as far as it goes: a start holds it from its beginning to its answer, a stop takes
the endpoints out under it (`Lifecycle.take`) and shuts them down after it has given the lock back.
`Calls` is the state that all calls share, and `Calls.perform?` says what each `Action` of a call
does to it, and what a start answers by it. The activations of a start end in any order and with any
outcome, and so do shutdowns.

A run of actions is what `Calls.run?` makes of them, and `Calls.Starts` picks out of a run what lies
between the beginning of one start and its answer. One lemma for each action says all that the
action can do (`start_cases`, `activated_cases` and so on).
-/

set_option autoImplicit false
set_option relaxedAutoImplicit false

namespace Connectors

/-- What a start answers. -/
abbrev Answer : Type := Except ApplicationError Unit

/-- What a start is at that holds the lock. -/
inductive Phase (η : Type) where
  /-- Its activations are under way. -/
  | activating (slots : Slots (Except ActivationError η)) (skipped : Nat)
  /-- It has failed, and shuts down the endpoints that were made all the same. -/
  | aborting (error : ActivationError) (left : List η)

/-- What happens in a call. -/
inductive Action (η : Type) where
  /-- A start takes the lock. -/
  | start
  /-- An activation ends. -/
  | activated (place : Nat) (outcome : Except ActivationError η)
  /-- The start takes up the outcomes of its activations. -/
  | conclude
  /-- The start that failed has shut down an endpoint. -/
  | abandon (handle : η) (outcome : Except String Unit)
  /-- The start that failed gives its answer. -/
  | fail
  /-- A stop takes the lock and gives it back. -/
  | stop
  /-- A stop has shut down an endpoint. -/
  | shutDown (place : Nat) (handle : η) (outcome : Except String Unit)

/-- A set of endpoints and the calls on it. -/
structure Calls (η : Type) where
  /-- The set. -/
  set : Lifecycle η := {}
  /-- The start that holds the lock, if one does. -/
  start? : Option (Phase η) := none
  /-- For each stop, the handles of the endpoints that it has still to shut down. -/
  stops : List (List η) := []
  /-- The handles that were given to starts. -/
  made : List η := []
  /-- The handles of the endpoints that were shut down, with the outcome. -/
  closed : List (η × Except String Unit) := []

namespace Calls

variable {η : Type}

/-- The handles that a start has gathered but not put into the set. -/
def gathered (calls : Calls η) : List η :=
  match calls.start? with
  | some (.activating slots _) => Lifecycle.made slots.outcomes
  | _ => []

/-- The shutdown of a start that has failed, if there is one, with the handles left to it. -/
def aborted (calls : Calls η) : List (List η) :=
  match calls.start? with
  | some (.aborting _ left) => [left]
  | _ => []

/-- The shutdowns that are pending, each with the handles left to it. -/
def shutdowns (calls : Calls η) : List (List η) :=
  calls.aborted ++ calls.stops

/-! ### What the calls do -/

/-- A start takes the lock. -/
def start (application : Application) (calls : Calls η) : Option (Calls η × Option Answer) :=
  match calls.start? with
  | some _ => none
  | none =>
    if calls.set.running then some (calls, some (.error .alreadyRunning))
    else
      match application.pending.value with
      | .error error => some (calls, some (.error error))
      | .ok (sections, skipped) =>
        some ({ calls with start? := some (.activating (.pending sections.length) skipped) }, none)

/-- The activation at a place ends. An endpoint that it made has a handle of its own. -/
def activated [DecidableEq η] (place : Nat) (outcome : Except ActivationError η)
    (calls : Calls η) : Option (Calls η) :=
  match calls.start? with
  | some (.activating slots skipped) =>
    let new := Lifecycle.made [outcome]
    if slots[place]? = some none ∧ ∀ handle ∈ new, handle ∉ calls.made then
      some { calls with
        start? := some (.activating (slots.fill place outcome) skipped)
        made := new ++ calls.made }
    else none
  | _ => none

/-- The start takes up the outcomes of its activations when all of them have ended. -/
def conclude (calls : Calls η) : Option (Calls η × Option Answer) :=
  match calls.start? with
  | some (.activating slots skipped) =>
    if slots.all Option.isSome then
      match (Lifecycle.conclude ActivationError.message slots.outcomes).value with
      | .ok handles =>
        some ({ calls with set := .started handles skipped, start? := none }, some (.ok ()))
      | .error abort =>
        some ({ calls with start? := some (.aborting abort.error abort.abandoned) }, none)
    else none
  | _ => none

/-- The start that failed has shut down one of the endpoints left to it. -/
def abandon [DecidableEq η] (handle : η) (outcome : Except String Unit) (calls : Calls η) :
    Option (Calls η) :=
  match calls.start? with
  | some (.aborting error left) =>
    if handle ∈ left then
      some { calls with
        start? := some (.aborting error (left.erase handle))
        closed := (handle, outcome) :: calls.closed }
    else none
  | _ => none

/-- The start that failed gives its answer, and gives the lock back. -/
def fail (calls : Calls η) : Option (Calls η × Option Answer) :=
  match calls.start? with
  | some (.aborting error []) =>
    some ({ calls with start? := none }, some (.error (.activation error)))
  | _ => none

/-- A stop takes the endpoints out of the set. -/
def stop (calls : Calls η) : Option (Calls η) :=
  match calls.start? with
  | some _ => none
  | none =>
    let (set, handles) := calls.set.take.value
    some { calls with set, stops := calls.stops ++ [handles] }

/-- A stop has shut down one of the endpoints left to it. -/
def shutDown [DecidableEq η] (place : Nat) (handle : η) (outcome : Except String Unit)
    (calls : Calls η) : Option (Calls η) :=
  match calls.stops[place]? with
  | some left =>
    if handle ∈ left then
      some { calls with
        stops := calls.stops.set place (left.erase handle)
        closed := (handle, outcome) :: calls.closed }
    else none
  | none => none

/-- The calls after an action and the answer of a start that it gives, if the action can happen. -/
def perform? [DecidableEq η] (application : Application) (calls : Calls η) :
    Action η → Option (Calls η × Option Answer)
  | .start => calls.start application
  | .activated place outcome => (calls.activated place outcome).map (·, none)
  | .conclude => calls.conclude
  | .abandon handle outcome => (calls.abandon handle outcome).map (·, none)
  | .fail => calls.fail
  | .stop => calls.stop.map (·, none)
  | .shutDown place handle outcome => (calls.shutDown place handle outcome).map (·, none)

/-- What becomes of calls when actions happen one after another, and the answers of starts that are
given on the way. -/
def run? [DecidableEq η] (application : Application) :
    List (Action η) → Calls η → Option (Calls η × List Answer)
  | [], calls => some (calls, [])
  | action :: rest, calls =>
    (calls.perform? application action).bind fun (next, answer) ↦
      (run? application rest next).map fun (last, answers) ↦ (last, answer.toList ++ answers)

/-- A start takes the lock, and some time later gives its answer. -/
inductive Starts [DecidableEq η] (application : Application) (calls : Calls η) (answer : Answer) :
    Calls η → Prop
  | atOnce {calls' : Calls η}
      (hstart : calls.perform? application .start = some (calls', some answer)) :
      Starts application calls answer calls'
  | later {begun between calls' : Calls η} {actions : List (Action η)} {last : Action η}
      (hstart : calls.perform? application .start = some (begun, none))
      (hbetween : begun.run? application actions = some (between, []))
      (hlast : between.perform? application last = some (calls', some answer)) :
      Starts application calls answer calls'

/-! ### What each action does -/

variable {application : Application} {calls calls' : Calls η} {answer : Option Answer}

theorem start_cases (hstart : calls.start application = some (calls', answer)) :
    calls.start? = none ∧
      ((calls' = calls ∧ ∃ error, answer = some (.error error)) ∨
        (calls.set.running = false ∧ answer = none ∧ ∃ sections skipped,
          application.pending.value = .ok (sections, skipped) ∧
          calls' = { calls with
            start? := some (.activating (.pending sections.length) skipped) })) := by
  unfold start at hstart
  cases hlock : calls.start? with
  | some phase => simp [hlock] at hstart
  | none =>
    refine ⟨rfl, ?_⟩
    cases hrunning : calls.set.running with
    | true =>
      simp only [hlock, hrunning, if_true, Option.some.injEq, Prod.mk.injEq] at hstart
      exact .inl ⟨hstart.1.symm, _, hstart.2.symm⟩
    | false =>
      cases hpending : application.pending.value with
      | error error =>
        simp only [hlock, hrunning, hpending, Bool.false_eq_true, if_false, Option.some.injEq,
          Prod.mk.injEq] at hstart
        exact .inl ⟨hstart.1.symm, _, hstart.2.symm⟩
      | ok chosen =>
        simp only [hlock, hrunning, hpending, Bool.false_eq_true, if_false, Option.some.injEq,
          Prod.mk.injEq] at hstart
        exact .inr ⟨rfl, hstart.2.symm, _, _, rfl, hstart.1.symm⟩

theorem activated_cases [DecidableEq η] {place : Nat} {outcome : Except ActivationError η}
    (hactivated : calls.activated place outcome = some calls') :
    ∃ slots skipped, calls.start? = some (.activating slots skipped) ∧
      slots[place]? = some none ∧ (∀ handle ∈ Lifecycle.made [outcome], handle ∉ calls.made) ∧
      calls' = { calls with
        start? := some (.activating (slots.fill place outcome) skipped)
        made := Lifecycle.made [outcome] ++ calls.made } := by
  unfold activated at hactivated
  split at hactivated
  · rename_i slots skipped hlock
    dsimp only at hactivated
    split_ifs at hactivated with hfree
    exact ⟨slots, skipped, hlock, hfree.1, hfree.2, (Option.some.inj hactivated).symm⟩
  · cases hactivated

theorem conclude_cases (hconclude : calls.conclude = some (calls', answer)) :
    ∃ slots skipped, calls.start? = some (.activating slots skipped) ∧
      slots.all Option.isSome = true ∧
      ((Lifecycle.failures slots.outcomes = [] ∧ answer = some (.ok ()) ∧ calls' = { calls with
          set := .started (Lifecycle.made slots.outcomes) skipped
          start? := none }) ∨
        (∃ error others, Lifecycle.failures slots.outcomes = error :: others ∧ answer = none ∧
          calls' = { calls with
            start? := some (.aborting error (Lifecycle.made slots.outcomes)) })) := by
  unfold conclude at hconclude
  split at hconclude
  · rename_i slots skipped hlock
    split_ifs at hconclude with hended
    refine ⟨slots, skipped, hlock, hended, ?_⟩
    cases hfailures : Lifecycle.failures slots.outcomes with
    | nil =>
      simp only [Lifecycle.conclude, hfailures, Option.some.injEq, Prod.mk.injEq] at hconclude
      exact .inl ⟨rfl, hconclude.2.symm, hconclude.1.symm⟩
    | cons error others =>
      simp only [Lifecycle.conclude, hfailures, Option.some.injEq, Prod.mk.injEq] at hconclude
      exact .inr ⟨error, others, rfl, hconclude.2.symm, hconclude.1.symm⟩
  · cases hconclude

theorem abandon_cases [DecidableEq η] {handle : η} {outcome : Except String Unit}
    (habandon : calls.abandon handle outcome = some calls') :
    ∃ error left, calls.start? = some (.aborting error left) ∧ handle ∈ left ∧
      calls' = { calls with
        start? := some (.aborting error (left.erase handle))
        closed := (handle, outcome) :: calls.closed } := by
  unfold abandon at habandon
  split at habandon
  · rename_i error left hlock
    split_ifs at habandon with hleft
    exact ⟨error, left, hlock, hleft, (Option.some.inj habandon).symm⟩
  · cases habandon

theorem fail_cases (hfail : calls.fail = some (calls', answer)) :
    ∃ error, calls.start? = some (.aborting error []) ∧ calls' = { calls with start? := none } ∧
      answer = some (.error (.activation error)) := by
  unfold fail at hfail
  split at hfail
  · rename_i error hlock
    simp only [Option.some.injEq, Prod.mk.injEq] at hfail
    exact ⟨error, hlock, hfail.1.symm, hfail.2.symm⟩
  · cases hfail

theorem stop_cases (hstop : calls.stop = some calls') :
    calls.start? = none ∧ calls' = { calls with
      set := calls.set.take.value.1
      stops := calls.stops ++ [calls.set.take.value.2] } := by
  unfold stop at hstop
  split at hstop
  · cases hstop
  · rename_i hlock
    exact ⟨hlock, (Option.some.inj hstop).symm⟩

theorem shutDown_cases [DecidableEq η] {place : Nat} {handle : η} {outcome : Except String Unit}
    (hshutDown : calls.shutDown place handle outcome = some calls') :
    ∃ left, calls.stops[place]? = some left ∧ handle ∈ left ∧
      calls' = { calls with
        stops := calls.stops.set place (left.erase handle)
        closed := (handle, outcome) :: calls.closed } := by
  unfold shutDown at hshutDown
  split at hshutDown
  · rename_i left hplace
    split_ifs at hshutDown with hleft
    exact ⟨left, hplace, hleft, (Option.some.inj hshutDown).symm⟩
  · cases hshutDown

theorem run?_cons [DecidableEq η] {action : Action η} {rest : List (Action η)}
    {answers : List Answer}
    (hrun : calls.run? application (action :: rest) = some (calls', answers)) :
    ∃ next answer later, calls.perform? application action = some (next, answer) ∧
      next.run? application rest = some (calls', later) ∧ answers = answer.toList ++ later := by
  obtain ⟨⟨next, answer⟩, hperform, hrest⟩ := Option.bind_eq_some_iff.mp hrun
  obtain ⟨⟨last, later⟩, hlater, heq⟩ := Option.map_eq_some_iff.mp hrest
  obtain ⟨rfl, rfl⟩ := Prod.mk.inj heq
  exact ⟨next, answer, later, hperform, hlater, rfl⟩

end Calls

end Connectors
