import Connectors.Proofs.Lifecycle.Slots
import Connectors.Proofs.Rehearsal.Endpoints
import Mathlib.Data.List.Induction

/-!
# Starts

A start of a `Deployment` begins one activation for each section (`Deployment.beginAll_spec`), and
what they come to stands by the order of the sections, whenever each of them ended
(`Deployment.fillAll_inOrderOfEnd`). So a start comes to one of four things (`Deployment.StartsTo`):
the set runs already, no section is taken, all activations made their endpoints, or one of them
failed. Here the answer and the deployment afterwards are told for each of them
(`Deployment.startsTo`).
-/

set_option autoImplicit false
set_option relaxedAutoImplicit false

namespace Connectors

namespace Rehearsal.Deployment

variable {deployment : Deployment}

/-! ### The activations of a start -/

theorem beginAll_append (sections : List ComponentSection) (chosen : ComponentSection) :
    deployment.beginAll (sections ++ [chosen]) =
      ((deployment.beginAll sections).1 ++ [((deployment.beginAll sections).2.activate
          deployment.application.registry chosen.id chosen.rawValues deployment.beans.resolver).1],
        ((deployment.beginAll sections).2.activate deployment.application.registry chosen.id
          chosen.rawValues deployment.beans.resolver).2) := by
  simp only [beginAll, List.foldl_append, List.foldl_cons, List.foldl_nil]

/-- The activations that a start begins, one for each section: the handles of what they make are
those that come next in the world. -/
theorem beginAll_spec (sections : List ComponentSection) :
    let (begun, world) := deployment.beginAll sections
    let made := Lifecycle.made (begun.map (·.value))
    begun.length = sections.length ∧
      made = List.range' deployment.world.nextHandle made.length ∧
      world.ledger = (deployment.world.ledger.1 ++ made,
        deployment.world.nextHandle + made.length) := by
  induction sections using List.reverseRecOn with
  | nil => exact ⟨rfl, rfl, by simp [World.ledger, Lifecycle.made]⟩
  | append_singleton sections chosen ih =>
    have hlast := @World.activate_ledger (deployment.beginAll sections).2
      deployment.application.registry chosen.id chosen.rawValues deployment.beans.resolver
    rw [beginAll_append]
    generalize (deployment.beginAll sections).2.activate deployment.application.registry chosen.id
      chosen.rawValues deployment.beans.resolver = activation at hlast
    obtain ⟨made, after⟩ := activation
    generalize deployment.beginAll sections = earlier at ih hlast
    obtain ⟨begun, world⟩ := earlier
    obtain ⟨hlength, hmade, hledger⟩ := ih
    dsimp only at hlast ⊢
    rw [List.map_append, Lifecycle.made_append]
    generalize Lifecycle.made (begun.map (·.value)) = handles at hmade hledger ⊢
    rcases hlast with ⟨⟨error, hvalue⟩, hafter⟩ | ⟨hvalue, hafter⟩
    · have hnone : Lifecycle.made ([made].map (·.value)) = [] := by simp [hvalue, Lifecycle.made]
      rw [hnone, List.append_nil]
      exact ⟨by simp [hlength], hmade, hafter.trans hledger⟩
    · have hone : Lifecycle.made ([made].map (·.value)) = [world.nextHandle] := by
        simp [hvalue, Lifecycle.made]
      have hnext : world.nextHandle = deployment.world.nextHandle + handles.length :=
        congrArg Prod.snd hledger
      rw [hone, hafter, hledger, hnext]
      refine ⟨by simp [hlength], ?_, by simp [Nat.add_assoc]⟩
      rw [List.length_append, List.length_singleton, List.range'_1_concat, ← hmade]

theorem inOrderOfEnd_perm {α : Type} (begun : List (Awaited α)) :
    (inOrderOfEnd begun).Perm ((begun.map (·.value)).zipIdx.map Prod.swap) := by
  refine ((List.mergeSort_perm begun.zipIdx _).map _).trans (List.Perm.of_eq ?_)
  rw [List.zipIdx_map, List.map_map]
  rfl

/-- The outcomes stand by the order of the sections, whenever each activation ended. -/
theorem fillAll_inOrderOfEnd {α : Type} (begun : List (Awaited α)) :
    (Slots.pending begun.length).fillAll (inOrderOfEnd begun) =
      (begun.map (·.value)).map some := by
  have hslots := Slots.fillAll_pending (inOrderOfEnd_perm begun)
  rwa [List.length_map] at hslots

/-! ### The answer of a start -/

/-- The deployment when a start has reported what it makes of the sections. -/
def reported (deployment : Deployment) : Deployment :=
  deployment.inWorld (deployment.world.report deployment.application.pending.events)

/-- What the activations come to that a start begins for sections. -/
def outcomes (deployment : Deployment) (sections : List ComponentSection) :
    List (Except ActivationError Nat) :=
  (deployment.reported.beginAll sections).1.map (·.value)

/-- The endpoints that a start makes have the handles that come next. -/
theorem made_outcomes (sections : List ComponentSection) :
    Lifecycle.made (deployment.outcomes sections) = List.range' deployment.world.nextHandle
      (Lifecycle.made (deployment.outcomes sections)).length := by
  have hspec := deployment.reported.beginAll_spec sections
  exact hspec.2.1

/-- What a start can come to: its answer, and the deployment afterwards. -/
inductive StartsTo (deployment : Deployment) : Except ApplicationError Unit × Deployment → Prop
  /-- The set runs already. -/
  | running (hrunning : deployment.set.running = true) :
      StartsTo deployment (.error .alreadyRunning, deployment)
  /-- No activation begins. -/
  | refused {error : ApplicationError} (hrunning : deployment.set.running = false)
      (hpending : deployment.application.pending.value = .error error) :
      StartsTo deployment (.error error, deployment.reported)
  /-- All activations made their endpoints. -/
  | started {sections : List ComponentSection} {skipped : Nat} {later : World}
      (hrunning : deployment.set.running = false)
      (hpending : deployment.application.pending.value = .ok (sections, skipped))
      (hfailures : Lifecycle.failures (deployment.outcomes sections) = [])
      (hroster : later.roster = (deployment.reported.beginAll sections).2.roster)
      (hkeeps : (deployment.reported.beginAll sections).2.Keeps later) :
      StartsTo deployment (.ok (), { deployment.reported with
        world := later
        set := .started (Lifecycle.made (deployment.outcomes sections)) skipped })
  /-- An activation failed, and what the others made is shut down. -/
  | aborted {sections : List ComponentSection} {skipped : Nat} {later : World}
      {error : ActivationError} {others : List ActivationError}
      (hrunning : deployment.set.running = false)
      (hpending : deployment.application.pending.value = .ok (sections, skipped))
      (hfailures : Lifecycle.failures (deployment.outcomes sections) = error :: others)
      (hroster : later.roster = (deployment.reported.beginAll sections).2.roster) :
      StartsTo deployment (.error (.activation error), deployment.reported.inWorld
        (later.shutDownAll (Lifecycle.made (deployment.outcomes sections))))

/-- A start whose activations begin goes by whether any of them fails, in a world in which time has
passed since. Its endpoints are those that there were when the last activation began, changed by
listings only. -/
theorem start_of_pending {sections : List ComponentSection} {skipped : Nat}
    (hrunning : deployment.set.running = false)
    (hpending : deployment.application.pending.value = .ok (sections, skipped)) :
    ∃ later : World, later.roster = (deployment.reported.beginAll sections).2.roster ∧
      (deployment.reported.beginAll sections).2.Keeps later ∧
      deployment.start =
        match Lifecycle.failures (deployment.outcomes sections) with
        | [] => (.ok (), { deployment.reported with
            world := later
            set := .started (Lifecycle.made (deployment.outcomes sections)) skipped })
        | error :: _ => (.error (.activation error), deployment.reported.inWorld
            (later.shutDownAll (Lifecycle.made (deployment.outcomes sections)))) := by
  let begun := (deployment.reported.beginAll sections).1
  have hslots : ((Slots.pending begun.length).fillAll (inOrderOfEnd begun)).outcomes =
      deployment.outcomes sections := by
    rw [fillAll_inOrderOfEnd, Slots.outcomes_map_some]
    rfl
  have hreported : deployment.inWorld (deployment.world.report
      deployment.application.pending.events) = deployment.reported := rfl
  refine ⟨((deployment.reported.beginAll sections).2.pass
      ((begun.map (·.wait)).foldl max 0)).report
        (Lifecycle.conclude ActivationError.message (deployment.outcomes sections)).events,
    World.pass_roster _, (World.keeps_pass _).trans (World.keeps_of_eq rfl), ?_⟩
  simp only [start, hrunning, hpending, Bool.false_eq_true, if_false]
  rw [hreported, hslots]
  unfold Lifecycle.conclude
  cases Lifecycle.failures (deployment.outcomes sections) <;> rfl

theorem startsTo (deployment : Deployment) : deployment.StartsTo deployment.start := by
  cases hrunning : deployment.set.running with
  | true =>
    have hanswer : deployment.start = (.error .alreadyRunning, deployment) := by
      simp [start, hrunning]
    exact hanswer ▸ .running hrunning
  | false =>
    cases hpending : deployment.application.pending.value with
    | error error =>
      have hanswer : deployment.start = (.error error, deployment.reported) := by
        simp [start, hrunning, hpending, reported]
      exact hanswer ▸ .refused hrunning hpending
    | ok chosen =>
      obtain ⟨later, hroster, hkeeps, hanswer⟩ := start_of_pending hrunning hpending
      rw [hanswer]
      cases hfailures : Lifecycle.failures (deployment.outcomes chosen.1) with
      | nil => exact .started hrunning hpending hfailures hroster hkeeps
      | cons error others => exact .aborted hrunning hpending hfailures hroster

end Rehearsal.Deployment

end Connectors
