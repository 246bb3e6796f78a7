import Connectors.Rehearsal.Deployment
import Connectors.Proofs.Lifecycle.Slots
import Connectors.Proofs.Registry.Built

/-!
# The handles of a world

The live endpoints of a world are known by their handles, and each new endpoint gets the next one.
The roster of a world says which component each live endpoint is of (`World.roster`), and its ledger
which handles there are (`World.ledger`). Time that passes leaves the roster alone (`pass_roster`),
an activation adds at most one endpoint to it (`activate_roster`), and shutdowns take away just
those they are about (`shutDownAll_roster`).
-/

set_option autoImplicit false
set_option relaxedAutoImplicit false

namespace Connectors.Rehearsal

namespace World

variable {world other : World}

/-- The handles of the live endpoints, each with the component it is of, and the next handle. -/
def roster (world : World) : List (Nat × String) × Nat :=
  (world.endpoints.map fun (handle, activated) ↦ (handle, activated.component), world.nextHandle)

/-- The handles of the live endpoints, and the next one. -/
def ledger (world : World) : List Nat × Nat :=
  (world.endpoints.map (·.1), world.nextHandle)

theorem ledger_eq (world : World) : world.ledger = (world.roster.1.map (·.1), world.roster.2) := by
  simp [ledger, roster, Function.comp_def]

theorem ledger_congr (hroster : world.roster = other.roster) : world.ledger = other.ledger := by
  rw [ledger_eq, ledger_eq, hroster]

/-! ### What leaves the endpoints alone -/

@[simp] theorem report_roster (events : List Event) : (world.report events).roster = world.roster :=
  rfl

@[simp] theorem unwatch_roster (handle : Nat) : (world.unwatch handle).roster = world.roster := rfl

@[simp] theorem setAgain_roster (monitor : Monitor) :
    (world.setAgain monitor).roster = world.roster := rfl

@[simp] theorem putEndpoint_roster (handle : Nat) (endpoint : Endpoint) :
    (world.putEndpoint handle endpoint).roster = world.roster := by
  simp only [roster, putEndpoint, List.map_map, Prod.mk.injEq, and_true]
  refine List.map_congr_left fun pair _ ↦ ?_
  simp only [Function.comp_apply]
  split_ifs <;> rfl

@[simp] theorem relist_roster (handle : Nat) (consumer : Kinesis.Consumer) :
    (world.relist handle consumer).2.roster = world.roster := by
  simp only [relist, putEndpoint_roster, report_roster]
  rfl

@[simp] theorem tick_roster (monitor : Monitor) : (world.tick monitor).roster = world.roster := by
  unfold tick
  split_ifs with hfresh
  · exact setAgain_roster monitor
  · split
    · rename_i consumer _
      dsimp only
      split_ifs
      · rw [unwatch_roster, relist_roster]
      · rw [setAgain_roster, relist_roster]
    · exact unwatch_roster monitor.handle

theorem tickAll_roster (bound steps : Nat) : (tickAll bound steps world).roster = world.roster := by
  induction steps generalizing world with
  | zero => rfl
  | succ steps ih =>
    unfold tickAll
    split
    · rfl
    · split_ifs
      · exact ih.trans (tick_roster _)
      · rfl

@[simp] theorem pass_roster (ms : Nat) : (world.pass ms).roster = world.roster :=
  tickAll_roster _ _

/-! ### What changes the endpoints -/

/-- An activation fails and leaves the endpoints as they are, or it adds one of the component that
its id leads to, under the next handle. Only where the id leads to no component is that the
failure. -/
theorem activate_roster (registry : Registry Factory) (id : String) (raw : RawValues)
    (resolver : Resolver) :
    let (made, after) := world.activate registry id raw resolver
    (∃ error, made.value = .error error ∧ after.roster = world.roster ∧
        (registry.contains id = true → ∀ reason, error ≠ .lookup (.schema reason))) ∨
      ∃ component, registry.component id = .ok component ∧ made.value = .ok world.nextHandle ∧
        after.roster =
          (world.roster.1 ++ [(world.nextHandle, component.schema.id)], world.nextHandle + 1) := by
  have hcases := registry.activate_cases Scripts.outside world.now id raw resolver world.services
  unfold activate
  dsimp only at hcases ⊢
  generalize registry.activate Scripts.outside world.now id raw resolver world.services = outcome
    at hcases ⊢
  rcases hcases with ⟨hcontains, error, hvalue⟩ |
    ⟨component, hcomponent, ⟨activated, hvalue, hid⟩ | ⟨error, hvalue, hreason⟩⟩
  · rw [hvalue]
    exact .inl ⟨error, rfl, rfl, by simp [hcontains]⟩
  · rw [hvalue]
    refine .inr ⟨component, hcomponent, rfl, ?_⟩
    simp [roster, keep, report, hid]
  · rw [hvalue]
    exact .inl ⟨error, rfl, rfl, fun _ ↦ hreason⟩

theorem shutDown_roster (handle : Nat) : (world.shutDown handle).2.roster =
    (world.roster.1.filter (·.1 ≠ handle), world.nextHandle) := by
  unfold shutDown
  dsimp only
  split <;> simp [roster, unwatch, List.filter_map, Function.comp_def]

theorem shutDownAll_one (handle : Nat) :
    (world.shutDownAll [handle]).roster = (world.shutDown handle).2.roster := by
  simp only [shutDownAll, List.foldl_cons, List.foldl_nil]
  rcases world.shutDown handle with ⟨outcome, after⟩
  cases world.endpoint? handle <;> cases outcome <;> rfl

/-- Shutdowns take away the endpoints that they are about and no others. -/
theorem shutDownAll_roster (handles : List Nat) : (world.shutDownAll handles).roster =
    (world.roster.1.filter (·.1 ∉ handles), world.nextHandle) := by
  induction handles generalizing world with
  | nil => simp [shutDownAll, roster]
  | cons handle rest ih =>
    have hrest :
        world.shutDownAll (handle :: rest) = (world.shutDownAll [handle]).shutDownAll rest :=
      rfl
    have hfirst : (world.shutDownAll [handle]).roster = _ :=
      (shutDownAll_one handle).trans (shutDown_roster handle)
    have hnext : (world.shutDownAll [handle]).nextHandle = world.nextHandle :=
      congrArg Prod.snd hfirst
    rw [hrest, ih, hfirst, hnext]
    simp [List.filter_filter, Bool.and_comm]

/-! ### The handles alone -/

@[simp] theorem report_ledger (events : List Event) : (world.report events).ledger = world.ledger :=
  rfl

/-- An activation that makes an endpoint adds its handle, which is the next one. -/
theorem activate_ledger (registry : Registry Factory) (id : String) (raw : RawValues)
    (resolver : Resolver) :
    let (made, after) := world.activate registry id raw resolver
    ((∃ error, made.value = .error error) ∧ after.ledger = world.ledger) ∨
      (made.value = .ok world.nextHandle ∧
        after.ledger = (world.ledger.1 ++ [world.nextHandle], world.nextHandle + 1)) := by
  rcases activate_roster registry id raw resolver with
    ⟨error, hvalue, hroster, -⟩ | ⟨component, -, hvalue, hroster⟩
  · exact .inl ⟨⟨error, hvalue⟩, ledger_congr hroster⟩
  · exact .inr ⟨hvalue, by rw [ledger_eq, hroster, ledger_eq]; simp⟩

theorem shutDownAll_ledger (handles : List Nat) : (world.shutDownAll handles).ledger =
    (world.ledger.1.filter (· ∉ handles), world.nextHandle) := by
  rw [ledger_eq, shutDownAll_roster, ledger_eq]
  simp [List.filter_map, Function.comp_def]

end World

end Connectors.Rehearsal
