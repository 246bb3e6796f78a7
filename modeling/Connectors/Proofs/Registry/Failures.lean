import Connectors.Proofs.Kinesis.Settings
import Connectors.Proofs.Rabbit.Connecting
import Connectors.Proofs.Registry.Built
import Connectors.Proofs.Traversal

/-!
# Failures of an activation

An activation may fail for its configuration: its component is not there, a value or a combination
of values is refused, or a client is missing or of the wrong type
(`ActivationError.isOfConfiguration`). It may also fail for a service that refuses a request
(`FactoryError.Wraps`), or for a listing that lacks the shard which a Kinesis consumer is for.

Each connector settles its configuration before its first request, and stops at the request whose
refusal it reports (`Outside.FailsWith`, `Factory.create_failsWith`). So an activation that fails
for its configuration has asked for nothing, and one that fails for a refusal has asked for nothing
after it (`Registry.activate_failure`).

An activation reaches the services through these requests only (`Registry.follows_activate`).
-/

set_option autoImplicit false
set_option relaxedAutoImplicit false

namespace Connectors

/-! ### Kinds of errors -/

/-- Whether a consumer is not made for its configuration. -/
def Kinesis.KinesisError.isOfConfiguration : Kinesis.KinesisError → Bool
  | bind _ | invalidOption _ _ | missingClient => true
  | unknownShard _ _ | client _ => false

/-- Whether a connector is not made for its configuration. -/
def Rabbit.RabbitError.isOfConfiguration : Rabbit.RabbitError → Bool
  | bind _ | invalidOption _ _ | missingConnectionFactory => true
  | connection _ | declaration _ _ => false

/-- Whether a stream is not made for its configuration. -/
def Calendar.CalendarError.isOfConfiguration : Calendar.CalendarError → Bool
  | bind _ | invalidOption _ _ | missingClientFactory => true
  | authorization _ | client _ => false

/-- Whether an endpoint is not made for its configuration. -/
def FactoryError.isOfConfiguration : FactoryError → Bool
  | kinesis error => error.isOfConfiguration
  | rabbit error => error.isOfConfiguration
  | calendar error => error.isOfConfiguration
  | timeout _ | other _ => false

/-- Whether a component is not activated for its configuration: it is not there, a value or a
combination of values is refused, or a client is missing or of the wrong type. -/
def ActivationError.isOfConfiguration : ActivationError → Bool
  | lookup _ => true
  | factory _ error => error.isOfConfiguration

/-- An error wraps the cause for which a service refused a request. -/
inductive FactoryError.Wraps (cause : String) : ServiceRequest → FactoryError → Prop
  /-- A listing failed. -/
  | kinesis (listing : Kinesis.Listing) : Wraps cause (.kinesis listing) (.kinesis (.client cause))
  /-- The broker is not reached, or a declaration failed. -/
  | rabbit {client : ObjectRef} {request : Rabbit.BrokerRequest} {error : Rabbit.RabbitError}
      (hwraps : error.Wraps cause request) : Wraps cause (.rabbit ⟨client, request⟩) (.rabbit error)
  /-- No client was made. -/
  | calendar (request : Calendar.ClientRequest) :
      Wraps cause (.calendar request) (.calendar (.authorization cause))

namespace FactoryError

variable {cause : String} {request : ServiceRequest} {error : FactoryError}

/-- A refusal that is wrapped is not one of the configuration. -/
theorem Wraps.isOfConfiguration_eq (hwraps : error.Wraps cause request) :
    error.isOfConfiguration = false := by
  cases hwraps with
  | kinesis => rfl
  | rabbit hwraps => cases hwraps <;> rfl
  | calendar => rfl

end FactoryError

/-! ### What is settled before the first request -/

section Settled

variable {config : Bound}

theorem Bound.requireObject_eq_some_iff {concreteType name : String} {reference : ObjectRef} :
    config.requireObject concreteType name = .ok (some reference) ↔
      config.object? concreteType name = some reference := by
  unfold Bound.requireObject Bound.object?
  split
  · split_ifs <;> simp
  · simp

theorem Kinesis.prepare_eq_ok {settings : Kinesis.Settings} {client : ObjectRef}
    (hprepare : Kinesis.prepare config = .ok (settings, client)) :
    Kinesis.Settings.ofBound config = .ok settings ∧
      config.object? Kinesis.clientConcreteType "amazonKinesisClient" = some client := by
  unfold Kinesis.prepare at hprepare
  split at hprepare
  · cases hprepare
  split_ifs at hprepare
  split at hprepare
  · cases hprepare
  · cases hprepare
  · next settings' hsettings _ _ client' hclient =>
    cases hprepare
    exact ⟨hsettings, Bound.requireObject_eq_some_iff.mp hclient⟩

theorem Kinesis.isOfConfiguration_of_prepare {error : KinesisError}
    (hprepare : Kinesis.prepare config = .error error) : error.isOfConfiguration = true := by
  unfold Kinesis.prepare at hprepare
  repeat' split at hprepare
  all_goals cases hprepare <;> rfl

theorem Rabbit.isOfConfiguration_of_prepare {error : RabbitError}
    (hprepare : Rabbit.prepare config = .error error) : error.isOfConfiguration = true := by
  unfold Rabbit.prepare at hprepare
  repeat' split at hprepare
  all_goals cases hprepare <;> rfl

theorem Calendar.isOfConfiguration_of_prepare {error : CalendarError}
    (hprepare : Calendar.prepare config = .error error) : error.isOfConfiguration = true := by
  unfold Calendar.prepare at hprepare
  repeat' split at hprepare
  all_goals cases hprepare <;> rfl

end Settled

/-! ### Endpoints that are not made -/

section Services

open Session (Follows EndsRefused)

variable {σ : Type} {outside : Outside σ} {world : σ} {config : Bound} {now : Calendar.Instant}
  {factory : Factory} {error : FactoryError}

/-- How the services answer, each request by the service it is for. An answer that carries nothing
stands as the empty list. -/
def Outside.answer (outside : Outside σ) : ServiceRequest → σ → Except String (List String) × σ
  | .kinesis request, world => outside.kinesis request world
  | .rabbit request, world =>
    ((outside.rabbit request world).1.map fun _ ↦ [], (outside.rabbit request world).2)
  | .calendar request, world =>
    ((outside.calendar request world).1.map fun _ ↦ [], (outside.calendar request world).2)

theorem Kinesis.follows_start : Follows outside.kinesis (start outside.kinesis config) := by
  unfold start
  split
  · exact Session.follows_pure _
  · exact (Session.follows_ask _).bind fun _ ↦ Session.follows_pure _

theorem Rabbit.follows_start : Follows outside.rabbit (start outside.rabbit config) := by
  unfold start
  split
  · exact Session.follows_pure _
  · exact (follows_connect.mapRequests fun _ _ ↦ rfl).bind fun _ ↦ Session.follows_pure _

theorem Calendar.follows_start : Follows outside.calendar (start outside.calendar now config) := by
  unfold start
  split
  · exact Session.follows_pure _
  · refine (Session.follows_ask _).bind fun reply ↦ ?_
    cases reply <;> exact Session.follows_pure _

theorem Factory.follows_create : Follows outside.answer (factory.create outside now config) := by
  cases factory with
  | kinesis =>
    refine Follows.bind ?_ fun _ ↦ Session.follows_pure _
    exact Kinesis.follows_start.mapRequests fun _ _ ↦ rfl
  | rabbit =>
    refine Follows.bind ?_ fun _ ↦ Session.follows_pure _
    exact Rabbit.follows_start.mapRequests fun _ _ ↦ rfl
  | calendar =>
    refine Follows.bind ?_ fun _ ↦ Session.follows_pure _
    exact Calendar.follows_start.mapRequests fun _ _ ↦ rfl
  | probe plan =>
    dsimp only [create]
    cases plan.fault <;> exact Session.follows_pure _

/-- How an endpoint of a connector is not made from a configuration, after which requests. -/
inductive Outside.FailsWith (outside : Outside σ) (world : σ) (config : Bound) :
    List ServiceRequest → FactoryError → Prop
  /-- The configuration is refused, before any request. -/
  | configuration {error : FactoryError} (hconfiguration : error.isOfConfiguration = true) :
      FailsWith outside world config [] error
  /-- The last request is refused. -/
  | refused {requests : List ServiceRequest} {last : ServiceRequest} {cause : String}
      {error : FactoryError} (hends : EndsRefused outside.answer world requests last cause)
      (hwraps : error.Wraps cause last) :
      FailsWith outside world config requests error
  /-- The one listing of the stream lacks the shard asked for. -/
  | lacking {client : ObjectRef} {stream shard : String} {listed : List String}
      (hclient : config.object? Kinesis.clientConcreteType "amazonKinesisClient" = some client)
      (hstream : config.string? "streamName" = some stream)
      (hshard : config.string? "shardId" = some shard)
      (hlisted : (outside.kinesis ⟨client, stream⟩ world).1 = .ok listed)
      (hlacks : shard ∉ listed) :
      FailsWith outside world config [.kinesis ⟨client, stream⟩]
        (.kinesis (.unknownShard stream shard))

theorem Kinesis.start_failsWith {error : KinesisError}
    (hfails : (start outside.kinesis config world).value = .error error) :
    outside.FailsWith world config ((start outside.kinesis config world).requests.map .kinesis)
      (.kinesis error) := by
  unfold start at hfails ⊢
  cases hprepare : prepare config with
  | error fault =>
    simp only [hprepare, Session.value_pure, Except.error.injEq] at hfails ⊢
    exact .configuration (hfails ▸ isOfConfiguration_of_prepare hprepare)
  | ok settled =>
    obtain ⟨settings, client⟩ := settled
    obtain ⟨hsettings, hclient⟩ := prepare_eq_ok hprepare
    obtain ⟨hstream, hshard, -⟩ := Settings.parts_of_ofBound hsettings
    simp only [hprepare, Session.value_bind, Session.value_ask, Session.value_pure,
      Session.requests_bind, Session.requests_ask, Session.requests_pure, List.append_nil,
      List.map_singleton] at hfails ⊢
    cases hlisting : (outside.kinesis ⟨client, settings.streamName⟩ world).1 with
    | error cause =>
      rw [hlisting, select] at hfails
      obtain rfl := Except.error.inj hfails
      exact .refused (Session.endsRefused_singleton hlisting) (.kinesis _)
    | ok listed =>
      rw [hlisting, select] at hfails
      cases hasked : settings.shardId with
      | none => simp [hasked] at hfails
      | some shard =>
        rw [hasked] at hfails hshard
        dsimp only at hfails
        split_ifs at hfails with hlacks
        obtain rfl := Except.error.inj hfails
        exact .lacking hclient hstream hshard hlisting (by simpa using hlacks)

theorem Rabbit.start_failsWith {error : RabbitError}
    (hfails : (start outside.rabbit config world).value = .error error) :
    outside.FailsWith world config ((start outside.rabbit config world).requests.map .rabbit)
      (.rabbit error) := by
  unfold start at hfails ⊢
  cases hprepare : prepare config with
  | error fault =>
    simp only [hprepare, Session.value_pure, Except.error.injEq] at hfails ⊢
    exact .configuration (hfails ▸ isOfConfiguration_of_prepare hprepare)
  | ok settled =>
    obtain ⟨settings, client⟩ := settled
    simp only [hprepare, Session.value_bind, Session.value_mapRequests, Session.value_pure,
      Session.requests_bind, Session.requests_mapRequests, Session.requests_pure, List.append_nil,
      List.map_map] at hfails ⊢
    cases hconnected :
        (connect (fun request ↦ outside.rabbit ⟨client, request⟩) settings world).value with
    | ok =>
      rw [hconnected] at hfails
      cases hfails
    | error fault =>
      rw [hconnected] at hfails
      obtain rfl := Except.error.inj hfails
      obtain ⟨last, cause, hends, hwraps⟩ := connect_eq_error hconnected
      refine .refused (EndsRefused.map ?_ ?_ hends) (.rabbit hwraps)
      · exact fun _ _ ↦ rfl
      · intro request world cause hrefused
        exact congrArg (Except.map fun _ ↦ []) hrefused

theorem Calendar.start_failsWith {error : CalendarError}
    (hfails : (start outside.calendar now config world).value = .error error) :
    outside.FailsWith world config
      ((start outside.calendar now config world).requests.map .calendar) (.calendar error) := by
  unfold start at hfails ⊢
  cases hprepare : prepare config with
  | error fault =>
    simp only [hprepare, Session.value_pure, Except.error.injEq] at hfails ⊢
    exact .configuration (hfails ▸ isOfConfiguration_of_prepare hprepare)
  | ok settled =>
    obtain ⟨settings, client⟩ := settled
    simp only [hprepare, Session.value_bind, Session.value_ask, Session.requests_bind,
      Session.requests_ask] at hfails ⊢
    cases hreply : (outside.calendar ⟨client, settings.credentials, settings.scopes,
        settings.applicationName⟩ world).1 with
    | ok => simp [hreply] at hfails
    | error cause =>
      simp only [hreply, Session.value_pure, Except.error.injEq, Session.requests_pure,
        List.append_nil, List.map_singleton] at hfails ⊢
      subst hfails
      exact .refused (Session.endsRefused_singleton (congrArg (Except.map fun _ ↦ []) hreply))
        (.calendar _)

/-- What is there after it was renamed was there before. -/
theorem eq_ok_of_renamed {ε ε' α β : Type} {made : Except ε α} {rename : ε → ε'} {value : α → β}
    {result : β} (hmade : (made.map value).mapError rename = .ok result) :
    ∃ content, made = .ok content ∧ result = value content := by
  cases made with
  | ok content => exact ⟨content, rfl, (Except.ok.inj hmade).symm⟩
  | error => cases hmade

/-- What fails after it was renamed failed before. -/
theorem eq_error_of_renamed {ε ε' α β : Type} {made : Except ε α} {rename : ε → ε'}
    {value : α → β} {fault : ε'} (hfails : (made.map value).mapError rename = .error fault) :
    ∃ error, made = .error error ∧ fault = rename error := by
  cases made with
  | ok => cases hfails
  | error error => exact ⟨error, rfl, (Except.error.inj hfails).symm⟩

/-- A connector fails to make an endpoint as its start fails. -/
theorem failsWith_of_start {κ ε α : Type} {start : Session κ σ (Except ε α)}
    {wrap : κ → ServiceRequest} {value : α → Endpoint} {rename : ε → FactoryError}
    (hstart : ∀ {fault : ε}, (start world).value = .error fault →
      outside.FailsWith world config ((start world).requests.map wrap) (rename fault)) :
    let made : Session ServiceRequest σ (Awaited (Except FactoryError Endpoint)) := do
      let made ← start.mapRequests wrap
      return ⟨0, (made.map value).mapError rename⟩
    (made world).value.value = .error error →
    outside.FailsWith world config (made world).requests error := by
  intro made hfails
  simp only [made, Session.value_bind, Session.value_mapRequests, Session.value_pure,
    Session.requests_bind, Session.requests_mapRequests, Session.requests_pure,
    List.append_nil] at hfails ⊢
  obtain ⟨fault, hfault, rfl⟩ := eq_error_of_renamed hfails
  exact hstart hfault

theorem Factory.create_failsWith (hconnector : factory ∈ connectors.map (·.2))
    (hfails : (factory.create outside now config world).value.value = .error error) :
    outside.FailsWith world config (factory.create outside now config world).requests error := by
  cases factory with
  | kinesis => exact failsWith_of_start Kinesis.start_failsWith hfails
  | rabbit => exact failsWith_of_start Rabbit.start_failsWith hfails
  | calendar => exact failsWith_of_start Calendar.start_failsWith hfails
  | probe plan => simp [connectors] at hconnector

end Services

/-! ### Activations -/

namespace Registry

variable {σ : Type} {registry : Registry Factory} {id : String} {outside : Outside σ}
  {now : Calendar.Instant} {raw : RawValues} {resolver : Resolver} {world : σ}
  {error : ActivationError}

/-- An activation reaches the services through its requests only. -/
theorem follows_activate :
    Session.Follows outside.answer (registry.activate outside now id raw resolver) := by
  unfold activate
  split
  · exact Session.follows_pure _
  · refine (Session.follows_ofLogged _).bind fun bound ↦ ?_
    cases bound with
    | error => exact Session.follows_pure _
    | ok config => exact Factory.follows_create.bind fun _ ↦ Session.follows_pure _

/-- An activation that is not limited in time fails because no configuration is made, without a
request, or because no endpoint is made from the configuration. -/
theorem activate_eq_error (htimeout : registry.timeout = none)
    (hfails : (registry.activate outside now id raw resolver world).value.value = .error error) :
    let outcome := registry.activate outside now id raw resolver world
    (∃ refusal, error = .lookup refusal) ∧ outcome.requests = [] ∨
      ∃ component config fault, registry.component id = .ok component ∧
        (registry.binder.bind component.schema raw resolver).value = .ok config ∧
        error = .factory component.schema.id fault ∧
        (component.factory.create outside now config world).value.value = .error fault ∧
        outcome.requests = (component.factory.create outside now config world).requests := by
  unfold activate at hfails ⊢
  cases hcomponent : registry.component id with
  | error reason =>
    simp only [hcomponent, Session.value_pure, Except.error.injEq] at hfails ⊢
    exact .inl ⟨⟨_, hfails.symm⟩, Session.requests_pure _ _⟩
  | ok component =>
    simp only [hcomponent, Session.value_bind, Session.value_ofLogged, Session.world_ofLogged,
      Session.requests_bind, Session.requests_ofLogged, List.nil_append] at hfails ⊢
    cases hbound : (registry.binder.bind component.schema raw resolver).value with
    | error refusal =>
      simp only [hbound, Session.value_pure, Except.error.injEq] at hfails ⊢
      exact .inl ⟨⟨_, hfails.symm⟩, Session.requests_pure _ _⟩
    | ok config =>
      simp only [hbound, Session.value_bind, Session.value_pure, Session.requests_bind,
        Session.requests_pure, List.append_nil, htimeout, Awaited.within] at hfails ⊢
      obtain ⟨fault, hfault, rfl⟩ := eq_error_of_renamed hfails
      exact .inr ⟨component, config, fault, rfl, hbound, rfl, hfault, rfl⟩

/-- What an activation of a connector that fails, and is not limited in time, has asked of the
services. One that fails for its configuration has asked for nothing and leaves the services as they
were. Any other one either ends on the request that was refused, the cause of which its error wraps,
or is that of a Kinesis consumer for one shard, after the one listing of its stream, which lacks the
shard. -/
theorem activate_failure (htimeout : registry.timeout = none)
    (hconnector : ∀ component, registry.component id = .ok component →
      component.factory ∈ connectors.map (·.2))
    (hfails : (registry.activate outside now id raw resolver world).value.value = .error error) :
    let outcome := registry.activate outside now id raw resolver world
    (error.isOfConfiguration = true → outcome.requests = [] ∧ outcome.world = world) ∧
      (error.isOfConfiguration = false →
        ∃ component config fault, registry.component id = .ok component ∧
          (registry.binder.bind component.schema raw resolver).value = .ok config ∧
          error = .factory component.schema.id fault ∧
          ((∃ last cause, Session.EndsRefused outside.answer world outcome.requests last cause ∧
              fault.Wraps cause last) ∨
            ∃ client stream shard listed,
              config.object? Kinesis.clientConcreteType "amazonKinesisClient" = some client ∧
              config.string? "streamName" = some stream ∧ config.string? "shardId" = some shard ∧
              outcome.requests = [.kinesis ⟨client, stream⟩] ∧
              (outside.kinesis ⟨client, stream⟩ world).1 = .ok listed ∧ shard ∉ listed ∧
              fault = .kinesis (.unknownShard stream shard))) := by
  intro outcome
  have hfollows : outcome.world = Session.after outside.answer outcome.requests world :=
    follows_activate world
  have hworld : outcome.requests = [] → outcome.world = world := fun hnone ↦ by
    rw [hfollows, hnone]
    rfl
  obtain ⟨⟨refusal, rfl⟩, hnone⟩ |
      ⟨component, config, fault, hcomponent, hbound, rfl, hfault, hrequests⟩ :=
    activate_eq_error htimeout hfails
  · exact ⟨fun _ ↦ ⟨hnone, hworld hnone⟩, nofun⟩
  have hfailed := Factory.create_failsWith (hconnector component hcomponent) hfault
  rw [← hrequests] at hfailed
  change outside.FailsWith world config outcome.requests fault at hfailed
  generalize outcome.requests = requests at hworld hfailed ⊢
  cases hfailed with
  | configuration hconfiguration =>
    exact ⟨fun _ ↦ ⟨rfl, hworld rfl⟩, fun hother ↦ absurd (hconfiguration.symm.trans hother) nofun⟩
  | refused hends hwraps =>
    refine ⟨fun hconfiguration ↦
        absurd (hconfiguration.symm.trans hwraps.isOfConfiguration_eq) nofun,
      fun _ ↦ ⟨component, config, fault, hcomponent, hbound, rfl, .inl ⟨_, _, hends, hwraps⟩⟩⟩
  | lacking hclient hstream hshard hlisted hlacks =>
    exact ⟨nofun, fun _ ↦ ⟨component, config, _, hcomponent, hbound, rfl,
      .inr ⟨_, _, _, _, hclient, hstream, hshard, rfl, hlisted, hlacks, rfl⟩⟩⟩

/-- The broker takes the exchange and refuses the first queue. -/
theorem activate_failure_queue :
    let schema : Schema := { toDraft := Rabbit.draft, indexed := by decide +kernel }
    let registry : Registry Factory := { entries := [("springrabbitmq", ⟨schema, .rabbit⟩)] }
    let outside : Outside Nat := {
      kinesis := fun _ asked ↦ (.ok [], asked + 1)
      rabbit := fun _ asked ↦ (if asked = 1 then .error "access refused" else .ok (), asked + 1)
      calendar := fun _ asked ↦ (.ok (), asked + 1) }
    let factory : ObjectRef := ⟨1, Rabbit.factoryType, Rabbit.factoryConcreteType⟩
    let raw : RawValues :=
      [("exchangeName", .text "orders"), ("queues", .text "incoming,returned"),
        ("autoDeclare", .text "true")]
    let outcome :=
      registry.activate outside 0 "spring-rabbitmq" raw ⟨fun _ ↦ none, fun _ ↦ [factory]⟩ 0
    let fault : FactoryError := .rabbit (.declaration "queue 'incoming'" "access refused")
    registry.timeout = none ∧
      (∀ component, registry.component "spring-rabbitmq" = .ok component →
        component.factory ∈ connectors.map (·.2)) ∧
      outcome.value.value = .error (.factory "spring-rabbitmq" fault) ∧
      ∃ last cause, Session.EndsRefused outside.answer 0 outcome.requests last cause ∧
        fault.Wraps cause last := by
  intro schema registry outside factory raw outcome fault
  have hconnector : ∀ component, registry.component "spring-rabbitmq" = .ok component →
      component.factory ∈ connectors.map (·.2) := by
    intro component hcomponent
    obtain rfl : ⟨schema, .rabbit⟩ = component := Except.ok.inj hcomponent
    decide
  have hfails : outcome.value.value = .error (.factory "spring-rabbitmq" fault) := by decide +kernel
  obtain ⟨_, _, fault', -, -, herror, hends | ⟨_, _, _, _, -, -, -, -, -, -, hfault⟩⟩ :=
    (activate_failure rfl hconnector hfails).2 rfl
  · obtain rfl := (ActivationError.factory.inj herror).2
    exact ⟨rfl, hconnector, hfails, hends⟩
  · obtain rfl := (ActivationError.factory.inj herror).2
    simp [fault] at hfault

end Registry

end Connectors
