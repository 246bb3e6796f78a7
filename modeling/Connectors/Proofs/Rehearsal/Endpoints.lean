import Connectors.Proofs.Kinesis.Watching
import Connectors.Proofs.Rehearsal.Handles

/-!
# What becomes of endpoints

An activation puts what it made under a handle of its own (`World.endpoint?_activate`). From then on
the endpoint lives in the world, and as long as it is not shut down, polled or told to consume again
only the listings of its shards change it (`Endpoint.follow`). So it is while time passes
(`World.keeps_pass`) and while other components are activated (`World.keeps_activate`).

`World.MadeFor` says this of one endpoint and a section: it is what activating the section made at a
time, after some listings.
-/

set_option autoImplicit false
set_option relaxedAutoImplicit false

namespace Connectors

/-- An endpoint after some listings of shards, which only a consumer takes notice of. -/
def Endpoint.follow (listings : List (Except String (List String))) : Endpoint → Endpoint
  | .kinesis consumer =>
    .kinesis { consumer with watch := consumer.watch.follow consumer.settings listings }
  | endpoint => endpoint

/-- The endpoint of a component after some listings of shards. -/
def Activated.follow (listings : List (Except String (List String))) (activated : Activated) :
    Activated :=
  { activated with endpoint := activated.endpoint.follow listings }

@[simp] theorem Activated.follow_nil (activated : Activated) : activated.follow [] = activated := by
  obtain ⟨component, endpoint⟩ := activated
  cases endpoint <;> rfl

theorem Activated.follow_append (listings more : List (Except String (List String)))
    (activated : Activated) :
    activated.follow (listings ++ more) = (activated.follow listings).follow more := by
  obtain ⟨component, endpoint⟩ := activated
  cases endpoint with
  | kinesis consumer => simp [follow, Endpoint.follow, Kinesis.Watch.follow_append]
  | _ => rfl

namespace Rehearsal.World

variable {world later : World} {handle : Nat} {registry : Registry Factory} {resolver : Resolver}

/-! ### Endpoints that live on -/

/-- Every endpoint of a world lives on in a later one, changed by listings only. -/
def Keeps (world later : World) : Prop :=
  ∀ handle activated, world.endpoint? handle = some activated →
    ∃ listings, later.endpoint? handle = some (activated.follow listings)

theorem keeps_of_eq (hlater : later.endpoints = world.endpoints) : world.Keeps later := by
  intro handle activated hactivated
  refine ⟨[], ?_⟩
  rw [Activated.follow_nil, ← hactivated, endpoint?, endpoint?, hlater]

theorem Keeps.trans {last : World} (hlater : world.Keeps later) (hlast : later.Keeps last) :
    world.Keeps last := by
  intro handle activated hactivated
  obtain ⟨listings, hlistings⟩ := hlater handle activated hactivated
  obtain ⟨more, hmore⟩ := hlast handle _ hlistings
  exact ⟨listings ++ more, by rw [hmore, Activated.follow_append]⟩

theorem endpoint?_putEndpoint (handle other : Nat) (endpoint : Endpoint) :
    (world.putEndpoint handle endpoint).endpoint? other =
      if other = handle then (world.endpoint? other).map ({ · with endpoint })
      else world.endpoint? other := by
  simp only [endpoint?, putEndpoint]
  induction world.endpoints with
  | nil => simp
  | cons entry rest ih =>
    obtain ⟨first, activated⟩ := entry
    by_cases hfirst : other = first
    · subst hfirst
      by_cases hhandle : other = handle <;> simp [hhandle]
    · have hbeq : (other == first) = false := beq_eq_false_iff_ne.mpr hfirst
      by_cases hhandle : first = handle
      · subst hhandle
        simpa [List.lookup_cons, hbeq] using ih
      · simpa [List.lookup_cons, hbeq, hhandle] using ih

/-- What a consumer lists again is one more listing of its shards, and no other endpoint changes. -/
theorem keeps_relist {component : String} {consumer : Kinesis.Consumer}
    (hconsumer : world.endpoint? handle = some ⟨component, .kinesis consumer⟩) :
    world.Keeps (world.relist handle consumer).2 := by
  intro other activated hactivated
  simp only [relist, endpoint?_putEndpoint]
  split_ifs with hother
  · subst hother
    obtain rfl := Option.some.inj (hconsumer.symm.trans hactivated)
    refine
      ⟨[(Scripts.answerListing ⟨consumer.client, consumer.settings.streamName⟩
        world.services).1], ?_⟩
    change (world.endpoint? other).map _ = _
    rw [hconsumer]
    rfl
  · refine ⟨[], ?_⟩
    rw [Activated.follow_nil]
    exact hactivated

theorem keeps_tick (monitor : Monitor) : world.Keeps (world.tick monitor) := by
  unfold tick
  split_ifs with hfresh
  · exact keeps_of_eq rfl
  · split
    · rename_i consumer hconsumer
      have hlisted := keeps_relist hconsumer
      dsimp only
      split_ifs
      · exact hlisted.trans (keeps_of_eq rfl)
      · exact hlisted.trans (keeps_of_eq rfl)
    · exact keeps_of_eq rfl

theorem keeps_tickAll (bound steps : Nat) : world.Keeps (tickAll bound steps world) := by
  induction steps generalizing world with
  | zero => exact keeps_of_eq rfl
  | succ steps ih =>
    unfold tickAll
    split
    · exact keeps_of_eq rfl
    · split_ifs
      · exact (keeps_tick _).trans ih
      · exact keeps_of_eq rfl

theorem keeps_pass (ms : Nat) : world.Keeps (world.pass ms) :=
  (keeps_tickAll _ _).trans (keeps_of_eq rfl)

/-! ### Endpoints that are made -/

theorem now_activate (registry : Registry Factory) (id : String) (raw : RawValues)
    (resolver : Resolver) : (world.activate registry id raw resolver).2.now = world.now := by
  simp only [activate]
  split <;> rfl

theorem keeps_activate (registry : Registry Factory) (id : String) (raw : RawValues)
    (resolver : Resolver) : world.Keeps (world.activate registry id raw resolver).2 := by
  simp only [activate]
  split
  · exact keeps_of_eq rfl
  · intro handle activated hactivated
    refine ⟨[], ?_⟩
    have hlookup : world.endpoints.lookup handle = some activated := hactivated
    simp [keep, endpoint?, report, List.lookup_append, hlookup]

/-- What an activation made is found under its handle, which is a new one. -/
theorem endpoint?_activate (hnew : world.nextHandle ∉ world.ledger.1) {id : String}
    {raw : RawValues} (hmade : (world.activate registry id raw resolver).1.value = .ok handle) :
    ∃ activated,
      (registry.activate Scripts.outside world.now id raw resolver world.services).value.value =
        .ok activated ∧
      (world.activate registry id raw resolver).2.endpoint? handle = some activated := by
  simp only [activate] at hmade ⊢
  split at hmade
  · cases hmade
  · rename_i activated hactivated
    obtain rfl : world.nextHandle = handle := Except.ok.inj hmade
    have hnone : world.endpoints.lookup world.nextHandle = none := by
      rw [List.lookup_eq_none_iff]
      rintro ⟨other, _⟩ hmem
      simpa using fun hsame : world.nextHandle = other ↦ hnew (hsame ▸ List.mem_map_of_mem hmem)
    refine ⟨activated, hactivated, ?_⟩
    simp [keep, endpoint?, report, List.lookup_append, hnone]

/-- The endpoint of a handle is what activating a section made at a time, with the values of the
section, in some state of the services. It may have listed its shards again since. -/
def MadeFor (world : World) (registry : Registry Factory) (resolver : Resolver)
    (since : Calendar.Instant) (given : ComponentSection) (handle : Nat) : Prop :=
  ∃ services activated listings,
    (registry.activate Scripts.outside since given.id given.rawValues resolver
      services).value.value = .ok activated ∧
    world.endpoint? handle = some (activated.follow listings)

theorem MadeFor.of_keeps {since : Calendar.Instant} {given : ComponentSection}
    (hmade : world.MadeFor registry resolver since given handle) (hkeeps : world.Keeps later) :
    later.MadeFor registry resolver since given handle := by
  obtain ⟨services, activated, listings, hactivated, hfound⟩ := hmade
  obtain ⟨more, hmore⟩ := hkeeps handle _ hfound
  exact ⟨services, activated, listings ++ more, hactivated, by rw [hmore, Activated.follow_append]⟩

end Rehearsal.World

end Connectors
