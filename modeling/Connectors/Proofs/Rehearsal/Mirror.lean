import Connectors.Proofs.Lifecycle.AnyOrder
import Connectors.Proofs.Rehearsal.Starts

/-!
# A rehearsal among all runs

A `Deployment` starts and stops its set one call after another. What it does is a run of `Calls`: a
start has its activations end in the order of their times and, if it fails, shuts down what they
made (`start_mirrored`), so it is one among all starts whose activations end in the same way
(`start_mirrored_of_pending`); and a stop shuts down all it took (`stop_mirrored`). An endpoint that
a start was given is live in the world as long as the account does not list it as shut down
(`Mirrors.agrees`).
-/

set_option autoImplicit false
set_option relaxedAutoImplicit false

namespace Connectors

namespace Rehearsal.Deployment

variable {deployment : Deployment} {calls : Calls Nat}

/-! ### The account and the world -/

/-- What is given out and shut down agrees with what lives in a world: a handle that was given out
lives until it is shut down. -/
structure Agrees (made closed : List Nat) (ledger : List Nat × Nat) : Prop where
  /-- A new handle is none that was given out. -/
  fresh : ∀ handle ∈ made, handle < ledger.2
  /-- Only what was given out is shut down. -/
  known : ∀ handle ∈ closed, handle ∈ made
  /-- What was given out and not shut down lives. -/
  live : ∀ handle ∈ made, handle ∈ ledger.1 ↔ handle ∉ closed

theorem Agrees.activated {made closed made' new : List Nat} {ledger : List Nat × Nat}
    (hagrees : Agrees made closed ledger) (hnew : new = List.range' ledger.2 new.length)
    (hmade : made'.Perm (new ++ made)) :
    Agrees made' closed (ledger.1 ++ new, ledger.2 + new.length) := by
  have hrange : ∀ handle, handle ∈ new ↔ ledger.2 ≤ handle ∧ handle < ledger.2 + new.length := by
    intro handle
    conv_lhs => rw [hnew]
    simp
  have hsplit : ∀ handle ∈ made', handle ∈ new ∨ handle ∈ made := fun handle hhandle ↦
    List.mem_append.mp (hmade.mem_iff.mp hhandle)
  refine ⟨fun handle hhandle ↦ ?_, fun handle hhandle ↦ ?_, fun handle hhandle ↦ ?_⟩
  · rcases hsplit handle hhandle with hin | hin
    · exact ((hrange handle).mp hin).2
    · exact Nat.lt_add_right _ (hagrees.fresh handle hin)
  · exact hmade.mem_iff.mpr (List.mem_append_right _ (hagrees.known handle hhandle))
  · rcases hsplit handle hhandle with hin | hin
    · have hopen : handle ∉ closed := by
        intro hclosed
        have hlt := hagrees.fresh handle (hagrees.known handle hclosed)
        have hle := ((hrange handle).mp hin).1
        omega
      simp [hin, hopen]
    · have hold : handle ∉ new := by
        intro hin'
        have hlt := hagrees.fresh handle hin
        have hle := ((hrange handle).mp hin').1
        omega
      simpa [hold] using hagrees.live handle hin

theorem Agrees.shutDown {made closed closed' handles : List Nat} {ledger : List Nat × Nat}
    (hagrees : Agrees made closed ledger) (hhandles : ∀ handle ∈ handles, handle ∈ made)
    (hclosed : closed'.Perm (handles ++ closed)) :
    Agrees made closed' (ledger.1.filter (· ∉ handles), ledger.2) := by
  refine ⟨hagrees.fresh, fun handle hhandle ↦ ?_, fun handle hhandle ↦ ?_⟩
  · have hsplit := List.mem_append.mp (hclosed.mem_iff.mp hhandle)
    exact hsplit.elim (hhandles handle) (hagrees.known handle)
  · have hlive := hagrees.live handle hhandle
    rw [hclosed.mem_iff, List.mem_filter, List.mem_append, hlive]
    simp [and_comm]

/-- Calls that are all done, and a deployment that is where they lead to. -/
structure Mirrors (calls : Calls Nat) (deployment : Deployment) : Prop where
  /-- The account of the calls. -/
  accounted : calls.Accounted
  /-- The set is the same. -/
  set : calls.set = deployment.set
  /-- No start holds the lock. -/
  free : calls.start? = none
  /-- The endpoints that live are those that the account has as not shut down. -/
  agrees : Agrees calls.made (calls.closed.map (·.1)) deployment.world.ledger

/-- The outcome of shutting down endpoints in a world, each with its handle. -/
def shutDowns (world : World) (handles : List Nat) : List (Nat × Except String Unit) :=
  handles.map fun handle ↦ (handle, (world.shutDown handle).1)

theorem map_fst_shutDowns (world : World) (handles : List Nat) :
    (shutDowns world handles).map (·.1) = handles := by
  simp [shutDowns, Function.comp_def]

theorem closed_shutDowns_perm (world : World) (handles : List Nat)
    (closed : List (Nat × Except String Unit)) :
    (((shutDowns world handles).reverse ++ closed).map (·.1)).Perm
      (handles ++ closed.map (·.1)) := by
  rw [List.map_append, List.map_reverse, map_fst_shutDowns]
  exact (List.reverse_perm handles).append_right _

/-- To stop a deployment is to stop its set and to shut down all that it held. -/
theorem stop_mirrored (application : Application) (hmirrors : Mirrors calls deployment) :
    ∃ actions calls', calls.run? application actions = some (calls', []) ∧
      Mirrors calls' deployment.stop ∧
      (deployment.set.running → ∀ handle ∈ deployment.set.endpoints,
        handle ∈ calls'.closed.map (·.1)) := by
  obtain ⟨haccounted, hset, hfree, hagrees⟩ := hmirrors
  let handles := deployment.set.take.value.2
  let shut := shutDowns deployment.world handles
  let stopped : Calls Nat := { calls with
    set := deployment.set.take.value.1
    stops := calls.stops ++ [handles] }
  let calls' : Calls Nat := { stopped with
    stops := calls.stops ++ [[]]
    closed := shut.reverse ++ calls.closed }
  have hstop : calls.perform? application .stop = some (stopped, none) := by
    simp [Calls.perform?, Calls.stop, hfree, hset, stopped, handles]
  have hshutDown : stopped.run? application (shut.map fun closing ↦
      .shutDown calls.stops.length closing.1 closing.2) = some (calls', []) := by
    refine Calls.run?_shutDown ?_
    rw [map_fst_shutDowns]
  have hrun := Calls.run?_silent hstop hshutDown
  have hhandles : ∀ handle ∈ handles, handle ∈ deployment.set.endpoints := by
    intro handle
    cases hrunning : deployment.set.running <;> simp [handles, Lifecycle.take, hrunning]
  have hgiven : ∀ handle ∈ handles, handle ∈ calls.made := by
    intro handle hhandle
    refine haccounted.placed.mem_iff.mp ?_
    simp [Calls.places, hset, hhandles handle hhandle]
  refine ⟨_, calls', hrun, ⟨haccounted.run hrun, rfl, hfree, ?_⟩, fun hrunning handle hhandle ↦ ?_⟩
  · have hledger : deployment.stop.world.ledger =
        (deployment.world.ledger.1.filter (· ∉ handles), deployment.world.ledger.2) :=
      World.shutDownAll_ledger handles
    rw [hledger]
    exact hagrees.shutDown hgiven (closed_shutDowns_perm _ _ _)
  · have hhandle' : handle ∈ handles := by
      simpa [handles, Lifecycle.take, hrunning] using hhandle
    exact (closed_shutDowns_perm _ _ _).mem_iff.mpr (List.mem_append_left _ hhandle')

/-- The activations of a start end in some order, at the end of which all outcomes are known and the
account agrees with the world. -/
theorem activations_mirrored {sections : List ComponentSection} {skipped : Nat}
    (hlock : calls.start? = some (.activating (.pending sections.length) skipped))
    (hagrees : Agrees calls.made (calls.closed.map (·.1)) deployment.world.ledger) :
    let (begun, world) := deployment.beginAll sections
    let outcomes := begun.map (·.value)
    ∃ actions made,
      calls.run? deployment.application actions = some ({ calls with
        start? := some (.activating (outcomes.map some) skipped)
        made }, []) ∧
      (∀ place outcome, .activated place outcome ∈ actions → outcomes[place]? = some outcome) ∧
      (∀ handle ∈ Lifecycle.made outcomes, handle ∈ made) ∧
      Agrees made (calls.closed.map (·.1)) world.ledger := by
  have hspec := deployment.beginAll_spec sections
  generalize deployment.beginAll sections = activations at hspec ⊢
  obtain ⟨begun, world⟩ := activations
  obtain ⟨hlength, hrange, hledger⟩ := hspec
  dsimp only
  have hended := inOrderOfEnd_perm begun
  have hplaces := Slots.places_perm hended
  rw [List.length_map] at hplaces
  have hempty : ∀ place ∈ (inOrderOfEnd begun).map (·.1),
      (Slots.pending sections.length : Slots (Except ActivationError Nat))[place]? = some none := by
    intro place hplace
    have hlt := List.mem_range.mp (hplaces.mem_iff.mp hplace)
    simp [Slots.pending, ← hlength, hlt]
  have hgiven : (Lifecycle.made ((inOrderOfEnd begun).map (·.2))).Perm
      (Lifecycle.made (begun.map (·.value))) :=
    (Slots.outcomes_perm hended).filterMap _
  have hhandles : (Lifecycle.made ((inOrderOfEnd begun).map (·.2))).Nodup :=
    hgiven.nodup_iff.mpr (hrange ▸ List.nodup_range')
  have hnew : ∀ handle ∈ Lifecycle.made ((inOrderOfEnd begun).map (·.2)), handle ∉ calls.made := by
    intro handle hhandle hold
    have hmem := hgiven.mem_iff.mp hhandle
    rw [hrange, List.mem_range'_1] at hmem
    have hlt := hagrees.fresh handle hold
    exact absurd hmem.1 (Nat.not_le_of_lt hlt)
  obtain ⟨made, hmade, hrun⟩ := Calls.run?_activated deployment.application hlock
    (hplaces.nodup_iff.mpr List.nodup_range) hempty hhandles hnew
  have hgrown := hmade.trans (hgiven.append_right _)
  rw [← hlength, fillAll_inOrderOfEnd] at hrun
  refine ⟨_, made, hrun, Calls.activated_given hended, fun handle hhandle ↦ ?_, ?_⟩
  · exact hgrown.mem_iff.mpr (List.mem_append_left _ hhandle)
  · rw [hledger]
    exact hagrees.activated hrange hgrown

/-- A start that failed shuts down what it was given, and then answers with the error. -/
theorem abort_mirrored (application : Application) {aborting : Calls Nat} {error : ActivationError}
    {handles : List Nat} {world : World}
    (hlock : aborting.start? = some (.aborting error handles))
    (hgiven : ∀ handle ∈ handles, handle ∈ aborting.made)
    (hagrees : Agrees aborting.made (aborting.closed.map (·.1)) world.ledger) :
    ∃ actions emptied calls', aborting.run? application actions = some (emptied, []) ∧
      (∀ place outcome, .activated place outcome ∉ actions) ∧
      emptied.perform? application .fail = some (calls', some (.error (.activation error))) ∧
      calls'.set = aborting.set ∧ calls'.start? = none ∧
      Agrees calls'.made (calls'.closed.map (·.1)) (world.shutDownAll handles).ledger := by
  let shut := shutDowns world handles
  let emptied : Calls Nat := { aborting with
    start? := some (.aborting error [])
    closed := shut.reverse ++ aborting.closed }
  have habandon : aborting.run? application
      (shut.map fun closing ↦ .abandon closing.1 closing.2) = some (emptied, []) := by
    refine Calls.run?_abandon ?_
    rw [map_fst_shutDowns]
    exact hlock
  have hledger : (world.shutDownAll handles).ledger =
      (world.ledger.1.filter (· ∉ handles), world.ledger.2) := World.shutDownAll_ledger handles
  refine ⟨_, emptied, { emptied with start? := none }, habandon, by simp, rfl, rfl, rfl, ?_⟩
  rw [hledger]
  exact hagrees.shutDown hgiven (closed_shutDowns_perm world handles aborting.closed)

/-- A start whose activations begin is one among all that end with the same outcomes: it gives the
answer that these give, and leaves the same set. -/
theorem start_mirrored_of_pending (hmirrors : Mirrors calls deployment)
    {sections : List ComponentSection} {skipped : Nat}
    (hrunning : deployment.set.running = false)
    (hpending : deployment.application.pending.value = .ok (sections, skipped)) :
    ∃ actions told calls', Calls.Startup deployment.application (deployment.outcomes sections) calls
        actions told deployment.start.1 calls' ∧
      Mirrors calls' deployment.start.2 := by
  obtain ⟨haccounted, hset, hfree, hagrees⟩ := hmirrors
  let begun : Calls Nat := { calls with
    start? := some (.activating (.pending sections.length) skipped) }
  have hstart : calls.perform? deployment.application .start = some (begun, none) := by
    simp [Calls.perform?, Calls.start, hfree, hset, hrunning, hpending, begun]
  have hactivations := @activations_mirrored deployment.reported begun sections skipped rfl hagrees
  dsimp only at hactivations
  obtain ⟨actions, made, hrun, houtcomes, hgiven, hagrees'⟩ := hactivations
  change ∀ handle ∈ Lifecycle.made (deployment.outcomes sections), handle ∈ made at hgiven
  change ∀ place outcome, .activated place outcome ∈ actions →
    (deployment.outcomes sections)[place]? = some outcome at houtcomes
  let ended : Calls Nat := { begun with
    start? := some (.activating ((deployment.outcomes sections).map some) skipped)
    made }
  have hended : ended.Accounted := (haccounted.perform hstart).run hrun
  have hconclude := @Calls.conclude_ended _ ended (deployment.outcomes sections) skipped rfl
  have hstarts := deployment.startsTo
  generalize deployment.start = answer at hstarts ⊢
  cases hstarts with
  | running hrunning' => cases hrunning.symm.trans hrunning'
  | refused _ hpending' => cases hpending.symm.trans hpending'
  | started _ hpending' hfailures hroster =>
    obtain ⟨rfl, rfl⟩ := Prod.mk.inj (Except.ok.inj (hpending.symm.trans hpending'))
    rw [hfailures] at hconclude
    let calls' : Calls Nat := { ended with
      set := .started (Lifecycle.made (deployment.outcomes sections)) skipped
      start? := none }
    have hlast : ended.perform? deployment.application .conclude =
        some (calls', some (.ok ())) := hconclude
    exact ⟨_, _, calls', .intro hstart hrun hlast houtcomes, hended.perform hlast, rfl, rfl,
      World.ledger_congr hroster ▸ hagrees'⟩
  | @aborted _ _ later error others _ hpending' hfailures hroster =>
    obtain ⟨rfl, rfl⟩ := Prod.mk.inj (Except.ok.inj (hpending.symm.trans hpending'))
    rw [hfailures] at hconclude
    rw [← World.ledger_congr hroster] at hagrees'
    let aborting : Calls Nat := { ended with
      start? := some (.aborting error (Lifecycle.made (deployment.outcomes sections))) }
    have hconcluded : ended.perform? deployment.application .conclude =
        some (aborting, none) := hconclude
    obtain ⟨closings, emptied, calls', habandon, hclosings, hlast, hkept, hfree', hagrees''⟩ :=
      @abort_mirrored deployment.application aborting error _ later rfl hgiven hagrees'
    have hbetween := Calls.run?_append hrun (Calls.run?_silent hconcluded habandon)
    have haccounted' := ((haccounted.perform hstart).run hbetween).perform hlast
    have hall : ∀ place outcome, .activated place outcome ∈ actions ++ .conclude :: closings →
        (deployment.outcomes sections)[place]? = some outcome := by
      intro place outcome hmem
      rcases List.mem_append.mp hmem with hmem | hmem
      · exact houtcomes place outcome hmem
      · simp [hclosings] at hmem
    exact ⟨_, _, calls', .intro hstart hbetween hlast hall, haccounted', hkept.trans hset, hfree',
      hagrees''⟩

/-- To start a deployment is to start its set: the answer is the same, and so is the set
afterwards. -/
theorem start_mirrored (hmirrors : Mirrors calls deployment) :
    ∃ calls', Calls.Starts deployment.application calls deployment.start.1 calls' ∧
      Mirrors calls' deployment.start.2 := by
  obtain ⟨haccounted, hset, hfree, hagrees⟩ := hmirrors
  cases hrunning : deployment.set.running with
  | true =>
    have hanswer : deployment.start = (.error .alreadyRunning, deployment) := by
      simp [start, hrunning]
    rw [hanswer]
    refine ⟨calls, .atOnce ?_, haccounted, hset, hfree, hagrees⟩
    simp [Calls.perform?, Calls.start, hfree, hset, hrunning]
  | false =>
    cases hpending : deployment.application.pending.value with
    | error error =>
      refine ⟨calls, .atOnce ?_, haccounted, ?_, hfree, ?_⟩
      · simp [Calls.perform?, Calls.start, hfree, hset, hrunning, start, hpending]
      · simp [start, hrunning, hpending, hset, inWorld]
      · simpa [start, hrunning, hpending, inWorld] using hagrees
    | ok chosen =>
      obtain ⟨actions, told, calls', hstartup, hmirrors⟩ :=
        start_mirrored_of_pending ⟨haccounted, hset, hfree, hagrees⟩ hrunning hpending
      exact ⟨calls', hstartup.starts, hmirrors⟩

end Rehearsal.Deployment

end Connectors
