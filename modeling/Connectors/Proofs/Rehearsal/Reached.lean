import Connectors.Proofs.Rehearsal.Starts

/-!
# Deployments that calls lead to

Calls on an application, and whatever is done to the objects and services around it, lead from a
fresh deployment to others (`Deployment.Reached`). In all of their worlds no handle stands twice and
the next one is above them all (`World.Tidy`, `Deployment.Reached.tidy`).
-/

set_option autoImplicit false
set_option relaxedAutoImplicit false

namespace Connectors.Rehearsal

/-! ### Tidy worlds -/

namespace World

variable {world other : World}

/-- The handles differ, and the next one is above them all. -/
structure Tidy (world : World) : Prop where
  /-- No handle stands twice. -/
  nodup : world.ledger.1.Nodup
  /-- A handle is below the next one. -/
  below : ∀ handle ∈ world.ledger.1, handle < world.ledger.2

theorem Tidy.congr (htidy : world.Tidy) (hledger : other.ledger = world.ledger) : other.Tidy :=
  ⟨hledger ▸ htidy.nodup, hledger ▸ htidy.below⟩

theorem Tidy.activate (htidy : world.Tidy) (registry : Registry Factory) (id : String)
    (raw : RawValues) (resolver : Resolver) : (world.activate registry id raw resolver).2.Tidy := by
  have hcases := @activate_ledger world registry id raw resolver
  generalize world.activate registry id raw resolver = activation at hcases ⊢
  obtain ⟨made, after⟩ := activation
  dsimp only at hcases ⊢
  rcases hcases with ⟨-, hledger⟩ | ⟨-, hledger⟩
  · exact htidy.congr hledger
  · have hnew : world.nextHandle ∉ world.ledger.1 := fun hmem ↦ Nat.lt_irrefl _ (htidy.below _ hmem)
    refine ⟨?_, fun handle hhandle ↦ ?_⟩
    · rw [hledger]
      exact htidy.nodup.append (List.nodup_singleton _) (by simpa using hnew)
    · rw [hledger] at hhandle ⊢
      rcases List.mem_append.mp hhandle with hhandle | hhandle
      · exact Nat.lt_succ_of_lt (htidy.below handle hhandle)
      · rw [List.mem_singleton.mp hhandle]
        exact Nat.lt_succ_self _

theorem Tidy.shutDownAll (htidy : world.Tidy) (handles : List Nat) :
    (world.shutDownAll handles).Tidy := by
  constructor
  · rw [shutDownAll_ledger]
    exact htidy.nodup.filter _
  · rw [shutDownAll_ledger]
    exact fun handle hhandle ↦ htidy.below handle (List.mem_filter.mp hhandle).1

theorem Tidy.shutDown (htidy : world.Tidy) (handle : Nat) : (world.shutDown handle).2.Tidy :=
  (htidy.shutDownAll [handle]).congr (ledger_congr (shutDownAll_one handle).symm)

end World

namespace Deployment

variable {application : Application} {deployment : Deployment}

theorem tidy_beginAll (htidy : deployment.world.Tidy) (sections : List ComponentSection) :
    (deployment.beginAll sections).2.Tidy := by
  induction sections using List.reverseRecOn with
  | nil => exact htidy
  | append_singleton sections chosen ih =>
    rw [beginAll_append]
    exact ih.activate _ _ _ _

/-- A start leaves a tidy world. -/
theorem tidy_start (htidy : deployment.world.Tidy) : deployment.start.2.world.Tidy := by
  have hreported : deployment.reported.world.Tidy := htidy.congr rfl
  have hstarts := deployment.startsTo
  generalize deployment.start = answer at hstarts ⊢
  cases hstarts with
  | running => exact htidy
  | refused => exact hreported
  | started _ _ _ hroster =>
    exact (tidy_beginAll hreported _).congr (World.ledger_congr hroster)
  | @aborted sections _ later _ _ _ _ _ hroster =>
    have hlater : later.Tidy :=
      (tidy_beginAll hreported sections).congr (World.ledger_congr hroster)
    exact hlater.shutDownAll _

/-- The deployments of an application that calls lead to. -/
inductive Reached (application : Application) : Deployment → Prop
  /-- One in a world without endpoints. -/
  | fresh (beans : BeanRegistry) (players : List (String × Nat)) (services : Scripts) :
      Reached application { application, beans, players, world := { services } }
  /-- After a start. -/
  | start {deployment : Deployment} (hreached : Reached application deployment) :
      Reached application deployment.start.2
  /-- After a stop. -/
  | stop {deployment : Deployment} (hreached : Reached application deployment) :
      Reached application deployment.stop
  /-- After some time. -/
  | pass {deployment : Deployment} (hreached : Reached application deployment) (ms : Nat) :
      Reached application (deployment.pass ms)
  /-- After a component was activated beside the application. -/
  | activate {deployment : Deployment} (hreached : Reached application deployment) (id : String)
      (raw : RawValues) (name : String) : Reached application (deployment.activate id raw name).2
  /-- After such a component was shut down. -/
  | shutDown {deployment : Deployment} (hreached : Reached application deployment) (name : String) :
      Reached application (deployment.shutDown name).2
  /-- After a calendar was polled. -/
  | poll {deployment : Deployment} (hreached : Reached application deployment) (handle : Nat) :
      Reached application (deployment.poll handle).2
  /-- After a connector was told to consume again. -/
  | resume {deployment : Deployment} (hreached : Reached application deployment) (handle : Nat) :
      Reached application (deployment.resume handle).2
  /-- With other objects and services around it, and after its records were taken. -/
  | around {deployment : Deployment} (hreached : Reached application deployment)
      (beans : BeanRegistry) (players : List (String × Nat)) (services : Scripts)
      (closed : List String) (events : List Event) :
      Reached application { deployment with
        beans, players, world := { deployment.world with services, closed, events } }

theorem start_application : deployment.start.2.application = deployment.application := by
  have hstarts := deployment.startsTo
  generalize deployment.start = answer at hstarts ⊢
  cases hstarts <;> rfl

theorem Reached.application_eq (hreached : Reached application deployment) :
    deployment.application = application := by
  induction hreached with
  | fresh => rfl
  | start _ ih => exact start_application.trans ih
  | stop _ ih => exact ih
  | pass _ _ ih => exact ih
  | activate _ id raw name ih =>
    rw [Deployment.activate]
    dsimp only
    split <;> exact ih
  | shutDown _ name ih =>
    rw [Deployment.shutDown]
    split <;> exact ih
  | poll _ handle ih =>
    rw [Deployment.poll]
    split <;> exact ih
  | resume _ handle ih =>
    rw [Deployment.resume]
    split <;> exact ih
  | around _ _ _ _ _ _ ih => exact ih

theorem Reached.tidy (hreached : Reached application deployment) : deployment.world.Tidy := by
  induction hreached with
  | fresh => exact ⟨List.nodup_nil, by simp [World.ledger]⟩
  | start _ ih => exact tidy_start ih
  | @stop deployment _ ih =>
    have hreported : (deployment.world.report deployment.set.take.events).Tidy := ih.congr rfl
    exact hreported.shutDownAll deployment.set.take.value.2
  | pass _ _ ih => exact ih.congr (World.ledger_congr (World.pass_roster _))
  | @activate deployment _ id raw name ih =>
    have hworld : (deployment.activate id raw name).2.world = (deployment.world.activateAndWait
        deployment.application.registry id raw deployment.beans.resolver).2 := by
      rw [Deployment.activate]
      dsimp only
      split <;> rfl
    rw [hworld]
    exact (ih.activate _ id raw _).congr (World.ledger_congr (World.pass_roster _))
  | shutDown _ name ih =>
    rw [Deployment.shutDown]
    split
    · exact ih
    · exact ih.shutDown _
  | poll _ handle ih =>
    rw [Deployment.poll]
    split
    · exact World.Tidy.congr ih (World.ledger_congr (World.putEndpoint_roster handle _))
    · exact ih
  | resume _ handle ih =>
    rw [Deployment.resume]
    split
    · exact ih.congr (World.ledger_congr (World.putEndpoint_roster handle _))
    · exact ih
  | around _ _ _ _ _ _ ih => exact World.Tidy.congr ih rfl

end Deployment

end Connectors.Rehearsal
