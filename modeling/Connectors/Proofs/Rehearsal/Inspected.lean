import Connectors.Proofs.Calendar.Credentials
import Connectors.Proofs.Rabbit.Limits
import Connectors.Proofs.Registry.Failures
import Connectors.Proofs.Rehearsal.Served
import Mathlib.Data.List.Find

/-!
# What a running component shows

An endpoint that is looked at shows the settings it was made with. They are the settings that its
raw values bind to (`Registry.shown_of_activate`), and listings of its shards do not change them
(`Endpoint.shown?_follow`). What is shown is complete: settings with the same data are the same
(`Kinesis.Settings.datum_injective` and its counterparts for the other connectors).

So a deployment that serves sections shows the settings of each of them under every spelling of its
id, and nothing under any other name (`Deployment.Serves.inspect`,
`Deployment.Serves.inspect_eq_none`). Time does not change this (`Deployment.Serves.of_keeps`), so
it holds however long after a start (`Deployment.inspect_of_start`). A component activated beside
the application is shown under its name (`Deployment.inspect_of_activate`).
-/

set_option autoImplicit false
set_option relaxedAutoImplicit false

namespace Connectors

/-! ### Tables from fields -/

/-- Pairs with the same different names in the same order are the same if they are the same up to
their order. -/
theorem Fields.eq_of_perm_of_names {α : Type} {fields others : Fields α}
    (hperm : fields.Perm others) (hnames : names fields = names others)
    (hnodup : (names fields).Nodup) : fields = others := by
  induction fields generalizing others with
  | nil => exact hperm.nil_eq
  | cons field rest ih =>
    cases others with
    | nil => cases hnames
    | cons other others =>
      have hrest : names rest = names others := (List.cons.inj hnames).2
      obtain ⟨hnew, hnodup'⟩ := List.nodup_cons.mp hnodup
      rcases List.mem_cons.mp (hperm.mem_iff.mp List.mem_cons_self) with rfl | hmem
      · rw [ih hperm.cons_inv hrest hnodup']
      · have hin : field.1 ∈ names others := List.mem_map_of_mem hmem
        rw [← hrest] at hin
        exact absurd hin hnew

namespace Datum

variable {fields others : List (String × Datum)}

/-- Of fields with different names, a table holds each under its name. -/
theorem get?_ofFields (hnodup : (Fields.names fields).Nodup) (name : String) :
    Fields.get? name (ofFields fields).fields = Fields.get? name fields :=
  Fields.get?_ofList hnodup name

/-- A table of fields with known names tells what their values are. -/
theorem ofFields_inj (hnames : Fields.names fields = Fields.names others)
    (hnodup : (Fields.names fields).Nodup) :
    ofFields fields = ofFields others ↔ fields = others := by
  refine ⟨fun hsame ↦ ?_, fun hsame ↦ hsame ▸ rfl⟩
  have hperm : (Fields.ofList fields).Perm fields := Fields.ofList_perm hnodup
  have hperm' : (Fields.ofList others).Perm others := by
    rw [hnames] at hnodup
    exact Fields.ofList_perm hnodup
  rw [Datum.table.inj hsame] at hperm
  exact Fields.eq_of_perm_of_names (hperm.symm.trans hperm') hnames hnodup

@[simp] theorem ofText?_inj {text other : Option String} :
    ofText? text = ofText? other ↔ text = other := by
  cases text <;> cases other <;> simp [ofText?]

@[simp] theorem ofTexts_inj {texts others : List String} :
    ofTexts texts = ofTexts others ↔ texts = others := by
  have hinjective : Function.Injective Datum.text := fun _ _ ↦ Datum.text.inj
  simp [ofTexts, hinjective.list_map.eq_iff]

@[simp] theorem ofNat_inj {value other : Nat} : ofNat value = ofNat other ↔ value = other := by
  simp [ofNat]

/-- A value that may be absent is known by its data, if no value that is there is null. -/
theorem ofOption_inj {α : Type} {write : α → Datum} (hwrite : Function.Injective write)
    (hnull : ∀ value, write value ≠ .null) {value other : Option α} :
    ofOption write value = ofOption write other ↔ value = other := by
  cases value <;> cases other <;> simp [ofOption, hnull, (hnull _).symm, hwrite.eq_iff]

end Datum

/-! ### Settings -/

open Datum (ofFields get?_ofFields ofFields_inj ofOption_inj)

namespace Kinesis

theorem Credentials.datum_injective : Function.Injective Credentials.datum := by
  intro credentials others hsame
  have htype := congrArg (fun datum ↦ Fields.get? "type" datum.fields) hsame
  cases credentials <;> cases others <;>
    simp [datum, get?_ofFields, Fields.names, Fields.get?] at htype <;>
    simp_all [datum, ofFields_inj, Fields.names]

theorem ProxySettings.datum_injective : Function.Injective ProxySettings.datum := by
  rintro ⟨host, port, protocol⟩ ⟨host', port', protocol'⟩ hsame
  have hprotocol : protocol.name = protocol'.name ↔ protocol = protocol' := by
    cases protocol <;> cases protocol' <;> decide
  simpa [datum, ofFields_inj, Fields.names, hprotocol] using hsame

/-- Settings with the same data are the same. -/
theorem Settings.datum_injective : Function.Injective Settings.datum := by
  intro settings others hsame
  have htype : settings.iteratorType.constant = others.iteratorType.constant ↔
      settings.iteratorType = others.iteratorType := by
    cases settings.iteratorType <;> cases others.iteratorType <;> decide
  have hclosed : settings.shardClosed.name = others.shardClosed.name ↔
      settings.shardClosed = others.shardClosed := by
    cases settings.shardClosed <;> cases others.shardClosed <;> decide
  have hinterval := @ofOption_inj _ Datum.ofNat (fun _ _ ↦ Datum.ofNat_inj.mp) (fun _ ↦ nofun)
    settings.shardMonitorInterval others.shardMonitorInterval
  have hproxy := @ofOption_inj _ _ ProxySettings.datum_injective (fun _ ↦ nofun)
    settings.proxy others.proxy
  cases settings
  cases others
  simp_all [datum, ofFields_inj, Fields.names, Credentials.datum_injective.eq_iff]

end Kinesis

namespace Rabbit

theorem ExchangeType.constant_inj {type other : ExchangeType} :
    type.constant = other.constant ↔ type = other := by
  cases type <;> cases other <;> decide

theorem DeadLetter.datum_injective : Function.Injective DeadLetter.datum := by
  rintro ⟨exchange, type, queue, key⟩ ⟨exchange', type', queue', key'⟩ hsame
  simpa [datum, ofFields_inj, Fields.names, ExchangeType.constant_inj] using hsame

theorem RetrySettings.datum_injective : Function.Injective RetrySettings.datum := by
  rintro ⟨attempts, delay, reject⟩ ⟨attempts', delay', reject'⟩ hsame
  simpa [datum, ofFields_inj, Fields.names] using hsame

/-- Settings with the same data are the same. -/
theorem Settings.datum_injective : Function.Injective Settings.datum := by
  intro settings others hsame
  have hmost := @ofOption_inj _ Datum.int (fun _ _ ↦ Datum.int.inj) (fun _ ↦ nofun)
    settings.maxConcurrentConsumers others.maxConcurrentConsumers
  have hletters := @ofOption_inj _ _ DeadLetter.datum_injective (fun _ ↦ nofun)
    settings.deadLetter others.deadLetter
  cases settings
  cases others
  simp_all [datum, ofFields_inj, Fields.names, ExchangeType.constant_inj,
    RetrySettings.datum_injective.eq_iff]

end Rabbit

namespace Calendar

theorem Credentials.datum_injective : Function.Injective Credentials.datum := by
  intro credentials others hsame
  have htype := congrArg (fun datum ↦ Fields.get? "type" datum.fields) hsame
  cases credentials <;> cases others <;>
    simp [datum, get?_ofFields, Fields.names, Fields.get?] at htype <;>
    simp_all [datum, ofFields_inj, Fields.names]

/-- Settings with the same data are the same. -/
theorem Settings.datum_injective : Function.Injective Settings.datum := by
  intro settings others hsame
  cases settings
  cases others
  simp_all [datum, ofFields_inj, Fields.names, Credentials.datum_injective.eq_iff]

end Calendar

/-! ### Endpoints -/

/-- The settings that an endpoint shows. A probe shows none. -/
def Endpoint.shown? (endpoint : Endpoint) : Option Datum :=
  Fields.get? "settings" endpoint.datum.fields

/-- The settings that a factory reads from a configuration, as data, if they are readable. A probe
has none. -/
def Factory.shown? (config : Bound) : Factory → Option Datum
  | kinesis => (Kinesis.Settings.ofBound config).toOption.map (·.datum)
  | rabbit => (Rabbit.Settings.ofBound config).toOption.map (·.datum)
  | calendar => (Calendar.Settings.ofBound config).toOption.map (·.datum)
  | probe _ => none

namespace Endpoint

@[simp] theorem shown?_kinesis (consumer : Kinesis.Consumer) :
    (kinesis consumer).shown? = some consumer.settings.datum := by
  simp [shown?, datum, Kinesis.Watch.fields, get?_ofFields, Fields.names, Fields.get?]

@[simp] theorem shown?_rabbit (listener : Rabbit.Listener) :
    (rabbit listener).shown? = some listener.settings.datum := by
  simp [shown?, datum, get?_ofFields, Fields.names, Fields.get?]

@[simp] theorem shown?_calendar (stream : Calendar.Stream) :
    (calendar stream).shown? = some stream.settings.datum := by
  simp [shown?, datum, get?_ofFields, Fields.names, Fields.get?]

@[simp] theorem shown?_probe (made : Probe) : (probe made).shown? = none := by
  simp [shown?, datum, get?_ofFields, Fields.names, Fields.get?]

/-- Listings of its shards do not change the settings of an endpoint. -/
@[simp] theorem shown?_follow (listings : List (Except String (List String)))
    (endpoint : Endpoint) : (endpoint.follow listings).shown? = endpoint.shown? := by
  cases endpoint <;> simp [follow]

end Endpoint

section Made

variable {σ : Type} {outside : Outside σ} {now : Calendar.Instant} {world : σ} {config : Bound}

theorem Kinesis.settings_of_select {settings : Kinesis.Settings} {client : ObjectRef}
    {listing : Except String (List String)} {consumer : Kinesis.Consumer}
    (hselect : select settings client listing = .ok consumer) : consumer.settings = settings := by
  unfold select at hselect
  repeat' split at hselect
  all_goals cases hselect <;> rfl

/-- A consumer has the settings that it is started with. -/
theorem Kinesis.ofBound_of_start {answer : Listing → σ → Except String (List String) × σ}
    {consumer : Consumer} (hstart : (start answer config world).value = .ok consumer) :
    Settings.ofBound config = .ok consumer.settings := by
  unfold start at hstart
  cases hprepare : prepare config with
  | error error =>
    rw [hprepare] at hstart
    cases hstart
  | ok settled =>
    rw [hprepare] at hstart
    rw [settings_of_select hstart]
    exact (prepare_eq_ok hprepare).1

/-- So does a listener. -/
theorem Rabbit.ofBound_of_start {answer : BrokerCall → σ → Except String Unit × σ}
    {listener : Listener} (hstart : (start answer config world).value = .ok listener) :
    Settings.ofBound config = .ok listener.settings := by
  unfold start at hstart
  cases hprepare : prepare config with
  | error error =>
    rw [hprepare] at hstart
    cases hstart
  | ok settled =>
    simp only [hprepare, Session.value_bind, Session.value_mapRequests,
      Session.value_pure] at hstart
    generalize (connect _ settled.1 world).value = connected at hstart
    cases connected with
    | error fault => cases hstart
    | ok =>
      obtain rfl := Except.ok.inj hstart
      exact (prepare_eq_ok_iff.mp hprepare).1

/-- So does a stream. -/
theorem Calendar.ofBound_of_start {answer : ClientRequest → σ → Except String Unit × σ}
    {stream : Stream} (hstart : (start answer now config world).value = .ok stream) :
    Settings.ofBound config = .ok stream.settings := by
  unfold start at hstart
  cases hprepare : prepare config with
  | error error =>
    rw [hprepare] at hstart
    cases hstart
  | ok settled =>
    simp only [hprepare, Session.value_bind, Session.value_ask] at hstart
    generalize (answer _ world).1 = reply at hstart
    cases reply with
    | error cause => cases hstart
    | ok =>
      obtain rfl := Except.ok.inj hstart
      exact (prepare_eq_ok hprepare).1

/-- An endpoint shows the settings that its factory read. -/
theorem Factory.shown?_of_create {factory : Factory} {endpoint : Endpoint}
    (hmade : (factory.create outside now config world).value.value = .ok endpoint) :
    endpoint.shown? = factory.shown? config := by
  cases factory with
  | kinesis =>
    obtain ⟨consumer, hstart, rfl⟩ := eq_ok_of_renamed hmade
    simp [shown?, Kinesis.ofBound_of_start hstart, Except.toOption]
  | rabbit =>
    obtain ⟨listener, hstart, rfl⟩ := eq_ok_of_renamed hmade
    simp [shown?, Rabbit.ofBound_of_start hstart, Except.toOption]
  | calendar =>
    obtain ⟨stream, hstart, rfl⟩ := eq_ok_of_renamed hmade
    simp [shown?, Calendar.ofBound_of_start hstart, Except.toOption]
  | probe plan =>
    simp only [create] at hmade
    cases hfault : plan.fault with
    | some fault => simp [hfault] at hmade
    | none =>
      rw [hfault] at hmade
      obtain rfl := Except.ok.inj hmade
      simp [shown?]

theorem Awaited.value_of_within {limit : Option Nat} {made : Awaited (Except FactoryError Endpoint)}
    {endpoint : Endpoint} (hwithin : (made.within limit).value = .ok endpoint) :
    made.value = .ok endpoint := by
  unfold within at hwithin
  repeat' split at hwithin
  all_goals first | exact hwithin | cases hwithin

/-- An endpoint shows the settings that its raw values bind to. -/
theorem Registry.shown_of_activate {registry : Registry Factory} {id : String} {raw : RawValues}
    {resolver : Resolver} {activated : Activated}
    (hmade : (registry.activate outside now id raw resolver world).value.value = .ok activated) :
    ∃ component config, registry.component id = .ok component ∧
      (registry.binder.bind component.schema raw resolver).value = .ok config ∧
      activated.endpoint.shown? = component.factory.shown? config := by
  cases hcomponent : registry.component id with
  | error reason =>
    simp only [Registry.activate, hcomponent, Session.value_pure] at hmade
    cases hmade
  | ok component =>
    cases hbound : (registry.binder.bind component.schema raw resolver).value with
    | error refusal =>
      rw [activate_of_refused hcomponent hbound] at hmade
      cases hmade
    | ok config =>
      refine ⟨component, config, rfl, hbound, ?_⟩
      rw [activate_of_bound hcomponent hbound] at hmade
      obtain ⟨endpoint, hvalue, rfl⟩ := eq_ok_of_renamed hmade
      exact Factory.shown?_of_create (Awaited.value_of_within hvalue)

end Made

/-! ### Deployments -/

namespace Rehearsal.Deployment

variable {application : Application} {deployment : Deployment} {sections : List ComponentSection}
  {since : Calendar.Instant} {world : World} {given : ComponentSection} {id key name : String}
  {raw : RawValues} {handle : Nat}

/-- Data shows what an id and raw values lead to: the settings in it are those that the values bind
to, for the component of the id. -/
def Shows (deployment : Deployment) (id : String) (raw : RawValues) (shown : Datum) : Prop :=
  ∃ component config, deployment.application.registry.component id = .ok component ∧
    (deployment.application.registry.binder.bind component.schema raw
      deployment.beans.resolver).value = .ok config ∧
    Fields.get? "settings" shown.fields = component.factory.shown? config

theorem component?_of_keeps (hkeeps : deployment.world.Keeps world) {handle : Nat} {id : String}
    (hid : deployment.component? handle = some id) :
    (deployment.inWorld world).component? handle = some id := by
  obtain ⟨activated, hactivated, rfl⟩ := Option.map_eq_some_iff.mp hid
  obtain ⟨listings, hlater⟩ := hkeeps handle activated hactivated
  exact Option.map_eq_some_iff.mpr ⟨_, hlater, rfl⟩

/-- Sections are served as long as their endpoints live on. -/
theorem Serves.of_keeps (hserves : deployment.Serves since sections)
    (hkeeps : deployment.world.Keeps world) : (deployment.inWorld world).Serves since sections := by
  have hcomponents : ∀ handle ∈ deployment.set.endpoints,
      (deployment.inWorld world).component? handle = deployment.component? handle := by
    intro handle hhandle
    rw [← List.map_snd_zip hserves.endpoints.length_eq.ge] at hhandle
    obtain ⟨⟨given, handle⟩, hzip, rfl⟩ := List.mem_map.mp hhandle
    obtain ⟨component, -, hcomponent, -⟩ := (List.forall₂_iff_zip.mp hserves.endpoints).2 hzip
    rw [hcomponent, component?_of_keeps hkeeps hcomponent]
  have hrunning : ∀ key, (deployment.inWorld world).running? key = deployment.running? key := by
    intro key
    rw [running?_eq, running?_eq]
    exact List.find?_congr fun handle hhandle ↦ by rw [hcomponents handle hhandle]
  refine ⟨hserves.endpoints.imp ?_, hserves.made.imp fun _ _ hmade ↦ hmade.of_keeps hkeeps, ?_,
    fun key ↦ ?_, fun key handle ↦ ?_⟩
  · rintro given handle ⟨component, hcomponent, hid, hnormal⟩
    exact ⟨component, hcomponent, component?_of_keeps hkeeps hid, hnormal⟩
  · have happart := hserves.apart
    rwa [List.map_congr_left fun handle hhandle ↦ by rw [← hcomponents handle hhandle]] at happart
  · rw [hrunning]
    exact hserves.reached key
  · rw [hrunning]
    exact hserves.found key handle

/-- A section that is served is shown under every spelling of its id. -/
theorem Serves.inspect (hserves : deployment.Serves since sections) (hgiven : given ∈ sections)
    (hkey : Key.normal key = Key.normal given.id) :
    ∃ shown, deployment.inspect? none key = some shown ∧
      deployment.Shows given.id given.rawValues shown := by
  rw [← List.map_fst_zip hserves.endpoints.length_eq.le] at hgiven
  obtain ⟨⟨given, handle⟩, hzip, rfl⟩ := List.mem_map.mp hgiven
  have hrunning : deployment.running? key = some handle :=
    (hserves.found key handle).mpr ⟨given, hzip, hkey⟩
  obtain ⟨services, activated, listings, hactivated, hfound⟩ :=
    (List.forall₂_iff_zip.mp hserves.made).2 hzip
  obtain ⟨component, config, hcomponent, hbound, hshown⟩ := Registry.shown_of_activate hactivated
  refine ⟨(activated.endpoint.follow listings).datum, ?_, component, config, hcomponent, hbound, ?_⟩
  · simp [inspect?, target?, hrunning, endpoint?, hfound, Activated.follow]
  · exact (Endpoint.shown?_follow listings activated.endpoint).trans hshown

/-- Nothing is shown under a name that is no spelling of the id of a section that is served. -/
theorem Serves.inspect_eq_none (hserves : deployment.Serves since sections)
    (hkey : ∀ given ∈ sections, Key.normal key ≠ Key.normal given.id) :
    deployment.inspect? none key = none := by
  have hrunning : deployment.running? key = none := by
    rw [← Option.not_isSome_iff_eq_none, hserves.reached]
    rintro ⟨given, hgiven, hsame⟩
    exact hkey given hgiven hsame
  simp [inspect?, target?, hrunning]

/-- However long after a start that succeeds, the sections that are switched on and have a component
are shown with their settings, each under every spelling of its id, and nothing else is. -/
theorem inspect_of_start (hreached : Reached application deployment)
    (hbuilt : application.registry.Built) (hsections : application.config.sections = .ok sections)
    (hstart : deployment.start.1 = .ok ()) (ms : Nat) (key : String) :
    let later := deployment.start.2.pass ms
    let served := sections.filter (Application.activates application.registry)
    (∀ given ∈ served, Key.normal key = Key.normal given.id →
      ∃ shown, later.inspect? none key = some shown ∧ later.Shows given.id given.rawValues shown) ∧
    ((∀ given ∈ served, Key.normal key ≠ Key.normal given.id) →
      later.inspect? none key = none) := by
  intro later served
  obtain ⟨-, hserves, -⟩ := serves_of_start hreached hbuilt hsections hstart
  have hlater : later.Serves deployment.world.now served := hserves.of_keeps (World.keeps_pass ms)
  exact ⟨fun given hgiven hkey ↦ hlater.inspect hgiven hkey, hlater.inspect_eq_none⟩

/-- A component activated beside the application is shown under the name it is held by, with the
settings that its raw values bind to. -/
theorem inspect_of_activate (hreached : Reached application deployment)
    (hmade : (deployment.activate id raw name).1 = .ok handle) (component : String) :
    ∃ shown, (deployment.activate id raw name).2.inspect? (some name) component = some shown ∧
      deployment.Shows id raw shown := by
  have hnew : deployment.world.nextHandle ∉ deployment.world.ledger.1 :=
    fun hmem ↦ Nat.lt_irrefl _ (hreached.tidy.below _ hmem)
  simp only [activate, World.activateAndWait] at hmade ⊢
  cases hvalue : (deployment.world.activate deployment.application.registry id raw
      deployment.beans.resolver).1.value with
  | error error => simp [hvalue] at hmade
  | ok other =>
    obtain rfl : other = handle := by simpa [hvalue] using hmade
    obtain ⟨activated, hactivated, hfound⟩ := World.endpoint?_activate hnew hvalue
    obtain ⟨schema, config, hcomponent, hbound, hshown⟩ := Registry.shown_of_activate hactivated
    obtain ⟨listings, hlater⟩ :=
      World.keeps_pass (deployment.world.activate deployment.application.registry id raw
        deployment.beans.resolver).1.wait other activated hfound
    refine ⟨(activated.endpoint.follow listings).datum, ?_, schema, config, hcomponent, hbound, ?_⟩
    · simp [inspect?, target?, endpoint?, inWorld, hlater, Activated.follow]
    · exact (Endpoint.shown?_follow listings activated.endpoint).trans hshown

end Rehearsal.Deployment

end Connectors
