import Connectors.Proofs.Lifecycle.Ownership
import Connectors.Proofs.Lifecycle.Selection
import Connectors.Proofs.Rehearsal.Reached

/-!
# Sections, endpoints and lookups

A started deployment serves the sections that were activated: it has one endpoint for each, of the
component that the section is for and made from the values of the section, and a component is looked
up by any spelling of the id of its section (`Deployment.Serves`). What is begun for a section makes
an endpoint of its component or fails for another reason than that there is none
(`Deployment.BegunFor`, `Deployment.begunFor_beginAll`), and what it makes is found under its handle
(`Deployment.madeFor_beginAll`). So a start that succeeds serves its sections
(`Deployment.serves_of_start`), and only a section without component stops a start for want of it
(`Deployment.start_eq_schema_iff`). Together these are `Deployment.start_serves_sections`, of every
deployment that calls lead to and every registry that can be built.
-/

set_option autoImplicit false
set_option relaxedAutoImplicit false

namespace Connectors

/-- Where all activations made their endpoints, these are the outcomes. -/
theorem Lifecycle.eq_map_made {ε η : Type} {outcomes : List (Except ε η)}
    (hfailures : failures outcomes = []) : outcomes = (made outcomes).map .ok := by
  induction outcomes with
  | nil => rfl
  | cons outcome rest ih =>
    cases outcome with
    | error error => simp [failures] at hfailures
    | ok handle =>
      have hrest : failures rest = [] := by simpa [failures] using hfailures
      conv_lhs => rw [ih hrest]
      simp [made]

/-- Where all activations made their endpoints, what holds of the outcomes that are endpoints holds
of the endpoints, one by one. -/
theorem Lifecycle.forall₂_made {α ε η : Type} {givens : List α} {outcomes : List (Except ε η)}
    {relation : α → η → Prop} (hfailures : failures outcomes = [])
    (houtcomes : List.Forall₂ (fun given outcome ↦ ∀ handle, outcome = .ok handle →
      relation given handle) givens outcomes) : List.Forall₂ relation givens (made outcomes) := by
  rw [eq_map_made hfailures, List.forall₂_map_right_iff] at houtcomes
  exact houtcomes.imp fun given handle hhandle ↦ hhandle handle rfl

theorem Lifecycle.mem_failures_iff {ε η : Type} {outcomes : List (Except ε η)} {error : ε} :
    error ∈ failures outcomes ↔ .error error ∈ outcomes := by
  induction outcomes with
  | nil => simp [failures]
  | cons outcome rest ih =>
    rw [List.mem_cons, ← ih]
    cases outcome <;> simp [failures]

namespace Rehearsal.Deployment

variable {application : Application} {deployment : Deployment} {sections : List ComponentSection}

/-! ### The component of an endpoint -/

/-- The component that a live endpoint is of. -/
def component? (deployment : Deployment) (handle : Nat) : Option String :=
  (deployment.endpoint? handle).map (·.component)

theorem component?_eq_some_iff (htidy : deployment.world.Tidy) {handle : Nat} {id : String} :
    deployment.component? handle = some id ↔ (handle, id) ∈ deployment.world.roster.1 := by
  have hlookup : deployment.component? handle = deployment.world.roster.1.lookup handle := by
    simp only [component?, endpoint?, World.endpoint?, World.roster]
    induction deployment.world.endpoints with
    | nil => rfl
    | cons entry rest ih =>
      obtain ⟨other, activated⟩ := entry
      rw [List.map_cons, List.lookup_cons, List.lookup_cons]
      cases handle == other
      · exact ih
      · rfl
  have hnodup : (deployment.world.roster.1.map (·.1)).Nodup := by
    have hledger := htidy.nodup
    rwa [World.ledger_eq] at hledger
  rw [hlookup, lookup_eq_some_iff_mem hnodup]

/-- A handle that is still to come is of nothing. -/
theorem component?_of_le (htidy : deployment.world.Tidy) {handle : Nat}
    (hnext : deployment.world.nextHandle ≤ handle) : deployment.component? handle = none := by
  rw [Option.eq_none_iff_forall_ne_some]
  intro id hid
  have hmem := (component?_eq_some_iff htidy).mp hid
  have hledger : handle ∈ deployment.world.ledger.1 := by
    rw [World.ledger_eq]
    exact List.mem_map_of_mem hmem
  exact absurd (htidy.below handle hledger) (Nat.not_lt.mpr hnext)

theorem running?_eq (deployment : Deployment) (key : String) : deployment.running? key =
    deployment.set.endpoints.find? fun handle ↦
      (deployment.component? handle).any fun component ↦ Key.agree component key := by
  simp only [running?, component?, endpoint?, Option.any_map]

/-! ### What is served -/

/-- A deployment serves sections since a time: each of them by the endpoint at its place, which is
of the component that the section is for and was made for the section at that time, and no component
by two endpoints. A lookup by any spelling of the id of one of these sections finds its endpoint,
and any other lookup finds none. -/
structure Serves (deployment : Deployment) (since : Calendar.Instant)
    (sections : List ComponentSection) : Prop where
  /-- Each section has its endpoint, in the order of the sections, and there are no others. -/
  endpoints : List.Forall₂ (fun given handle ↦ ∃ component,
    deployment.application.registry.component given.id = .ok component ∧
      deployment.component? handle = some component.schema.id ∧
      Key.normal component.schema.id = Key.normal given.id) sections deployment.set.endpoints
  /-- Each endpoint is what activating its section made, with the id and the values of the
  section. -/
  made : List.Forall₂ (deployment.world.MadeFor deployment.application.registry
    deployment.beans.resolver since) sections deployment.set.endpoints
  /-- No two endpoints are of components with ids of one normal form. -/
  apart : (deployment.set.endpoints.map fun handle ↦
    (deployment.component? handle).map Key.normal).Nodup
  /-- A lookup finds an endpoint exactly by the spellings of the ids of the sections. -/
  reached : ∀ key, (deployment.running? key).isSome ↔
    ∃ given ∈ sections, Key.normal key = Key.normal given.id
  /-- What it finds is the endpoint of the section with that id. -/
  found : ∀ key handle, deployment.running? key = some handle ↔ ∃ given,
    (given, handle) ∈ sections.zip deployment.set.endpoints ∧ Key.normal key = Key.normal given.id

/-- What is found among the endpoints of sections by an id is the endpoint of the section with that
id, where no two sections are for one component. -/
theorem find?_eq_some_iff_zip {handles : List Nat} {isFound : Nat → Bool} {key : String}
    (hforms : (sections.map fun given ↦ Key.normal given.id).Nodup)
    (hfound : List.Forall₂ (fun given handle ↦
      isFound handle = true ↔ Key.normal key = Key.normal given.id) sections handles)
    (handle : Nat) : handles.find? isFound = some handle ↔
      ∃ given, (given, handle) ∈ sections.zip handles ∧ Key.normal key = Key.normal given.id := by
  induction hfound with
  | nil => simp
  | @cons given first others rest hfirst hrest ih =>
    obtain ⟨hnew, hforms'⟩ := List.nodup_cons.mp hforms
    rw [List.zip_cons_cons]
    by_cases hkey : Key.normal key = Key.normal given.id
    · rw [List.find?_cons_of_pos (hfirst.mpr hkey)]
      constructor
      · intro hhandle
        exact ⟨given, by simp [Option.some.inj hhandle], hkey⟩
      · rintro ⟨other, hmem, hother⟩
        rcases List.mem_cons.mp hmem with heq | hmem
        · rw [(Prod.mk.inj heq).2]
        · have hin : Key.normal given.id ∈ others.map fun given ↦ Key.normal given.id :=
            List.mem_map.mpr ⟨other, (List.of_mem_zip hmem).1, hother.symm.trans hkey⟩
          exact absurd hin hnew
    · rw [List.find?_cons_of_neg (mt hfirst.mp hkey), ih hforms']
      refine exists_congr fun other ↦ ⟨fun hother ↦ ⟨List.mem_cons_of_mem _ hother.1, hother.2⟩, ?_⟩
      rintro ⟨hmem, hother⟩
      rcases List.mem_cons.mp hmem with heq | hmem
      · exact absurd ((Prod.mk.inj heq).1 ▸ hother) hkey
      · exact ⟨hmem, hother⟩

/-- Sections for different components are served if each has an endpoint of its component. -/
theorem serves_of_endpoints {since : Calendar.Instant}
    (hforms : (sections.map fun given ↦ Key.normal given.id).Nodup)
    (hendpoints : List.Forall₂ (fun given handle ↦ ∃ component,
      deployment.application.registry.component given.id = .ok component ∧
        deployment.component? handle = some component.schema.id ∧
        Key.normal component.schema.id = Key.normal given.id) sections deployment.set.endpoints)
    (hmade : List.Forall₂ (deployment.world.MadeFor deployment.application.registry
      deployment.beans.resolver since) sections deployment.set.endpoints) :
    deployment.Serves since sections := by
  have hfound : ∀ key handle, deployment.running? key = some handle ↔ ∃ given,
      (given, handle) ∈ sections.zip deployment.set.endpoints ∧
        Key.normal key = Key.normal given.id := by
    intro key handle
    rw [running?_eq]
    refine find?_eq_some_iff_zip hforms (hendpoints.imp ?_) handle
    rintro given other ⟨component, -, hcomponent, hnormal⟩
    rw [hcomponent, Option.any_some, Key.agree_iff, hnormal, eq_comm]
  have hlength : sections.length = deployment.set.endpoints.length := hendpoints.length_eq
  refine ⟨hendpoints, hmade, ?_, fun key ↦ ?_, hfound⟩
  · have hids : (deployment.set.endpoints.map fun handle ↦
        (deployment.component? handle).map Key.normal) =
        (sections.map fun given ↦ Key.normal given.id).map some := by
      rw [List.map_map, ← List.forall₂_eq_eq_eq, List.forall₂_map_left_iff,
        List.forall₂_map_right_iff]
      refine hendpoints.flip.imp ?_
      rintro handle given ⟨component, -, hcomponent, hnormal⟩
      rw [hcomponent, Option.map_some, hnormal, Function.comp_apply]
    rw [hids]
    exact hforms.map (Option.some_injective _)
  · simp only [Option.isSome_iff_exists, hfound]
    constructor
    · rintro ⟨handle, given, hmem, hkey⟩
      exact ⟨given, (List.of_mem_zip hmem).1, hkey⟩
    · rintro ⟨given, hgiven, hkey⟩
      rw [← List.map_fst_zip hlength.le] at hgiven
      obtain ⟨⟨given, handle⟩, hmem, rfl⟩ := List.mem_map.mp hgiven
      exact ⟨handle, given, hmem, hkey⟩

/-! ### What is begun -/

/-- What an activation comes to that was begun for a section. -/
structure BegunFor (registry : Registry Factory) (world : World) (given : ComponentSection)
    (made : Awaited (Except ActivationError Nat)) : Prop where
  /-- An endpoint that is made is one of the component that the section is for. -/
  ok : ∀ handle, made.value = .ok handle → ∃ component,
    registry.component given.id = .ok component ∧ (handle, component.schema.id) ∈ world.roster.1
  /-- If there is such a component, a failure is not that there is none. -/
  error : ∀ error, made.value = .error error → registry.contains given.id = true →
    ∀ reason, error ≠ .lookup (.schema reason)

theorem begunFor_beginAll (deployment : Deployment) (sections : List ComponentSection) :
    List.Forall₂ (BegunFor deployment.application.registry (deployment.beginAll sections).2)
      sections (deployment.beginAll sections).1 := by
  induction sections using List.reverseRecOn with
  | nil => exact .nil
  | append_singleton sections chosen ih =>
    have hcases := @World.activate_roster (deployment.beginAll sections).2
      deployment.application.registry chosen.id chosen.rawValues deployment.beans.resolver
    rw [beginAll_append]
    generalize (deployment.beginAll sections).2.activate deployment.application.registry chosen.id
      chosen.rawValues deployment.beans.resolver = activation at hcases
    obtain ⟨made, after⟩ := activation
    generalize deployment.beginAll sections = earlier at ih hcases
    obtain ⟨begun, world⟩ := earlier
    dsimp only at ih hcases ⊢
    have hgrows : ∀ entry ∈ world.roster.1, entry ∈ after.roster.1 := by
      rcases hcases with ⟨error, -, hroster, -⟩ | ⟨component, -, -, hroster⟩
      · simp [hroster]
      · rw [hroster]
        exact fun entry hentry ↦ List.mem_append_left _ hentry
    have hlast : BegunFor deployment.application.registry after chosen made := by
      rcases hcases with ⟨error, hvalue, -, hreason⟩ | ⟨component, hcomponent, hvalue, hroster⟩
      · refine ⟨by simp [hvalue], fun other hother hcontains ↦ ?_⟩
        obtain rfl : error = other := by simpa [hvalue] using hother
        exact hreason hcontains
      · refine ⟨fun handle hhandle ↦ ⟨component, hcomponent, ?_⟩, by simp [hvalue]⟩
        obtain rfl : world.nextHandle = handle := by simpa [hvalue] using hhandle
        simp [hroster]
    refine List.rel_append (ih.imp fun given made hbegun ↦ ⟨fun handle hhandle ↦ ?_, hbegun.error⟩)
      (.cons hlast .nil)
    obtain ⟨component, hcomponent, hmem⟩ := hbegun.ok handle hhandle
    exact ⟨component, hcomponent, hgrows _ hmem⟩

theorem now_beginAll (deployment : Deployment) (sections : List ComponentSection) :
    (deployment.beginAll sections).2.now = deployment.world.now := by
  induction sections using List.reverseRecOn with
  | nil => rfl
  | append_singleton sections chosen ih =>
    rw [beginAll_append, World.now_activate, ih]

/-- What was made of a section is found under its handle when the last activation has begun. -/
theorem madeFor_beginAll (htidy : deployment.world.Tidy) (sections : List ComponentSection) :
    List.Forall₂ (fun given (made : Awaited (Except ActivationError Nat)) ↦
      ∀ handle, made.value = .ok handle → (deployment.beginAll sections).2.MadeFor
        deployment.application.registry deployment.beans.resolver deployment.world.now given handle)
      sections (deployment.beginAll sections).1 := by
  induction sections using List.reverseRecOn with
  | nil => exact .nil
  | append_singleton sections chosen ih =>
    have hearlier := tidy_beginAll htidy sections
    have hnew : (deployment.beginAll sections).2.nextHandle ∉
        (deployment.beginAll sections).2.ledger.1 :=
      fun hmem ↦ Nat.lt_irrefl _ (hearlier.below _ hmem)
    rw [beginAll_append]
    refine List.rel_append
      (ih.imp fun given made hmade handle hhandle ↦
        (hmade handle hhandle).of_keeps (World.keeps_activate _ _ _ _))
      (.cons (fun handle hhandle ↦ ?_) .nil)
    obtain ⟨activated, hactivated, hfound⟩ := World.endpoint?_activate hnew hhandle
    rw [now_beginAll] at hactivated
    exact ⟨_, activated, [], hactivated, by rw [hfound, Activated.follow_nil]⟩

/-! ### Starts -/

/-- A start fails for want of a component only where a strict application does not begin. -/
theorem start_eq_schema_iff (hrunning : deployment.set.running = false)
    (hsections : deployment.application.config.sections = .ok sections) {reason : SchemaError} :
    deployment.start.1 = .error (.schema reason) ↔
      deployment.application.pending.value = .error (.schema reason) := by
  have hstarts := deployment.startsTo
  generalize deployment.start = answer at hstarts ⊢
  cases hstarts with
  | running hrunning' => cases hrunning.symm.trans hrunning'
  | refused _ hpending => simp [hpending]
  | started _ hpending => simp [hpending]
  | @aborted chosen _ _ error others _ hpending hfailures =>
    refine ⟨fun hschema ↦ ?_, by simp [hpending]⟩
    obtain rfl : error = .lookup (.schema reason) := by
      simpa [ApplicationError.schema] using hschema
    have hmem := Lifecycle.mem_failures_iff.mp (hfailures ▸ List.mem_cons_self)
    obtain ⟨made, hmade, hvalue⟩ := List.mem_map.mp hmem
    obtain ⟨hlength, hzip⟩ := List.forall₂_iff_zip.mp (begunFor_beginAll deployment.reported chosen)
    rw [← List.map_snd_zip hlength.ge] at hmade
    obtain ⟨⟨given, made⟩, hpair, rfl⟩ := List.mem_map.mp hmade
    have hgiven := (List.of_mem_zip hpair).1
    rw [(Application.pending_eq_ok hsections hpending).1, List.mem_filter, Application.activates,
      Bool.and_eq_true] at hgiven
    exact absurd rfl ((hzip hpair).error _ hvalue hgiven.2.2 reason)

/-- A start that succeeds serves the sections that are switched on and have a component, by
endpoints that it made, and passes over the others. -/
theorem serves_of_start (hreached : Reached application deployment)
    (hbuilt : application.registry.Built) (hsections : application.config.sections = .ok sections)
    (hstart : deployment.start.1 = .ok ()) :
    deployment.start.2.stats.active + deployment.start.2.stats.skipped = sections.length ∧
      deployment.start.2.Serves deployment.world.now
        (sections.filter (Application.activates application.registry)) ∧
      ∀ handle ∈ deployment.start.2.set.endpoints, deployment.component? handle = none := by
  obtain rfl := hreached.application_eq
  have htidy := (Reached.start hreached).tidy
  have hstarts := deployment.startsTo
  generalize deployment.start = answer at hstarts hstart htidy ⊢
  cases hstarts with
  | running => cases hstart
  | refused => cases hstart
  | aborted => cases hstart
  | @started chosen _ _ _ hpending hfailures hroster hkeeps =>
    obtain ⟨rfl, hcount⟩ := Application.pending_eq_ok hsections hpending
    have hbegun := Lifecycle.forall₂_made hfailures <| List.forall₂_map_right_iff.mpr <|
      (begunFor_beginAll deployment.reported _).imp fun given made hmade ↦ hmade.ok
    have hmade := Lifecycle.forall₂_made hfailures <| List.forall₂_map_right_iff.mpr <|
      madeFor_beginAll (hreached.tidy.congr rfl : deployment.reported.world.Tidy) _
    have hlength : _ = (Lifecycle.made (deployment.outcomes _)).length := hbegun.length_eq
    refine ⟨?_, serves_of_endpoints ?_ (hbegun.imp ?_) (hmade.imp fun given handle hmade ↦
      hmade.of_keeps hkeeps), fun handle hhandle ↦ ?_⟩
    · simpa [stats, Application.stats, Lifecycle.started, ← hlength] using hcount
    · exact (ComponentSection.nodup_forms_of_readAll hsections).sublist
        (List.filter_sublist.map _)
    · rintro given handle ⟨component, hcomponent, hmem⟩
      have hentry := Registry.component_eq_ok_iff.mp hcomponent
      refine ⟨component, hcomponent, (component?_eq_some_iff htidy).mpr ?_, hbuilt.normal_id hentry⟩
      exact hroster ▸ hmem
    · have hin : handle ∈ Lifecycle.made (deployment.outcomes _) := hhandle
      rw [made_outcomes, List.mem_range'_1] at hin
      exact component?_of_le hreached.tidy hin.1

/-- A configuration with sections to be read has them in the order of their ids. A start that
succeeds counts every one of them, serves those that are switched on and have a component, each by
what activating it made at that time, and does so by endpoints that were not there before. Only a
strict application fails to start for want of a component: it names the first section that is
switched on and has none, before anything is activated or reported. -/
theorem start_serves_sections (hreached : Reached application deployment)
    (hbuilt : application.registry.Built) (hsections : application.config.sections = .ok sections) :
    (sections.map (·.id) = Fields.names application.config.components ∧
      (Fields.Ordered application.config.components →
        sections.Pairwise fun one other ↦ one.id < other.id)) ∧
    (deployment.start.1 = .ok () →
      deployment.start.2.stats.active + deployment.start.2.stats.skipped = sections.length ∧
        (deployment.start.2.Serves deployment.world.now <| sections.filter fun given ↦
          given.enabled && application.registry.contains given.id) ∧
        ∀ handle ∈ deployment.start.2.set.endpoints, deployment.component? handle = none) ∧
    (deployment.set.running = false → ∀ id,
      (deployment.start.1 = .error (.schema (.unknownComponent id)) ↔
        application.registry.binder.unknownKeys = .strict ∧ ∃ before given rest,
          sections = before ++ given :: rest ∧ given.id = id ∧ given.enabled = true ∧
            application.registry.contains given.id = false ∧
            ∀ earlier ∈ before, earlier.enabled = true →
              application.registry.contains earlier.id = true) ∧
      (deployment.start.1 = .error (.schema (.unknownComponent id)) →
        deployment.start.2 = deployment)) := by
  have hids := ComponentSection.ids_of_readAll hsections
  refine ⟨⟨hids, fun hordered ↦ ?_⟩, serves_of_start hreached hbuilt hsections,
    fun hrunning id ↦ ⟨?_, fun hschema ↦ ?_⟩⟩
  · have hnames : (sections.map (·.id)).Pairwise (· < ·) := hids ▸ List.pairwise_map.mpr hordered
    exact List.pairwise_map.mp hnames
  all_goals
    obtain rfl := hreached.application_eq
  · rw [start_eq_schema_iff hrunning hsections, Application.pending_eq_schema_iff hsections]
    refine and_congr_right fun _ ↦ ?_
    simp only [List.find?_eq_some_iff_append, Application.isStray]
    constructor
    · rintro ⟨given, ⟨hstray, before, rest, rfl, hbefore⟩, hreason⟩
      simp only [Bool.and_eq_true, Bool.not_eq_true'] at hstray
      refine ⟨before, given, rest, rfl, (SchemaError.unknownComponent.inj hreason).symm, hstray.1,
        hstray.2, fun earlier hearlier henabled ↦ ?_⟩
      simpa [henabled] using hbefore earlier hearlier
    · rintro ⟨before, given, rest, rfl, rfl, henabled, hcontains, hbefore⟩
      refine ⟨given, ⟨by simp [henabled, hcontains], before, rest, rfl, fun earlier hearlier ↦ ?_⟩,
        rfl⟩
      cases hswitch : earlier.enabled with
      | false => rfl
      | true => simp [hbefore earlier hearlier hswitch]
  · have hpending := (start_eq_schema_iff hrunning hsections).mp hschema
    have hstrict := ((Application.pending_eq_schema_iff hsections).mp hpending).1
    simp [start, hrunning, hpending, Application.pending_events_of_strict hstrict, inWorld,
      World.report]

/-- An application with two components and three sections: one spells the id of its component in a
way of its own, one is switched off, and one has no component. -/
def stall (binder : Binder) : Application where
  config := { components := [("Orders", .table []), ("audit", .table [("enabled", .bool false)]),
    ("ghost", .table [])] }
  registry := { Calls.relay.registry with binder }

theorem built_stall (binder : Binder) : (stall binder).registry.Built := by
  have haudit : ({} : Registry Factory).register { id := "audit", indexed := by decide +kernel }
      (.probe {}) = .ok { entries :=
        [("audit", ⟨{ id := "audit", indexed := by decide +kernel }, .probe {}⟩)] } := rfl
  have hrelay : Calls.relay.registry.Built :=
    @Registry.Built.register _ _ _ { id := "orders", indexed := by decide +kernel } (.probe {})
      (.register .empty haudit) rfl
  exact hrelay.settle binder none

/-- The section that has no component is passed over, or stops the start if the application is
strict. -/
theorem start_serves_sections_stall :
    let lenient : Deployment := { application := stall {} }
    let strict : Deployment := { application := stall .strict }
    let started := lenient.start.2
    let orders : ComponentSection := ⟨"Orders", true, []⟩
    lenient.start.1 = .ok () ∧
      started.stats.active + started.stats.skipped = 3 ∧
      (∃ handle, started.running? "or-ders" = some handle ∧ started.world.MadeFor
        started.application.registry started.beans.resolver 0 orders handle) ∧
      strict.start.1 = .error (.schema (.unknownComponent "ghost")) ∧ strict.start.2 = strict := by
  intro lenient strict started orders
  let audit : ComponentSection := ⟨"audit", false, []⟩
  let ghost : ComponentSection := ⟨"ghost", true, []⟩
  have hsections : ∀ binder, (stall binder).config.sections = .ok [orders, audit, ghost] :=
    fun _ ↦ rfl
  have hfresh : ∀ application, Reached application { application } := fun _ ↦ .fresh .empty [] _
  have hstart : lenient.start.1 = .ok () := by decide +kernel
  obtain ⟨-, hserves, -⟩ := start_serves_sections (hfresh _) (built_stall {}) (hsections _)
  obtain ⟨hcount, hserves, -⟩ := hserves hstart
  obtain ⟨-, -, hfails⟩ := start_serves_sections (hfresh _) (built_stall .strict) (hsections _)
  obtain ⟨hghost, hkeeps⟩ := hfails rfl "ghost"
  have hschema := hghost.mpr ⟨rfl, [orders, audit], ghost, [], rfl, rfl, rfl, by decide +kernel,
    by decide +kernel⟩
  have hsection : ([orders, audit, ghost].filter fun given ↦
      given.enabled && (stall {}).registry.contains given.id) = [orders] := by decide +kernel
  rw [hsection] at hserves
  have hreached := (hserves.reached "or-ders").mpr ⟨orders, by simp, by decide +kernel⟩
  obtain ⟨handle, hhandle⟩ := Option.isSome_iff_exists.mp hreached
  obtain ⟨given, hzip, -⟩ := (hserves.found "or-ders" handle).mp hhandle
  have hmade := (List.forall₂_iff_zip.mp hserves.made).2 hzip
  obtain rfl : given = orders := List.mem_singleton.mp (List.of_mem_zip hzip).1
  exact ⟨hstart, hcount, ⟨handle, hhandle, hmade⟩, hschema, hkeeps hschema⟩

end Rehearsal.Deployment

end Connectors
