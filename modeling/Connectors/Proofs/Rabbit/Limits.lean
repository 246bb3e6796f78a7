import Connectors.Proofs.Binding.Demands
import Connectors.Proofs.Registry.Spellings

/-!
# Settings within the limits of a broker

Before a connector asks its broker for anything its settings are read and checked, in two steps.
Reading demands an exchange, and one for dead letters if there is a queue or a routing key for them
(`Settings.checks_ofBound`). What is read are the numbers of the configuration, where spans of time
that are negative count as none (`Settings.Configured`). Then the numbers are held against what the
protocol allows (`Settings.fault?_eq_none_iff`).

Put together, the configuration alone decides whether a connector comes to its broker: it has to be
`Limited`, and a connection factory has to be there (`exists_prepare_iff`). From then on an
activation fails only for what the broker refuses (`activate_of_prepare`).
-/

set_option autoImplicit false
set_option relaxedAutoImplicit false

namespace Connectors.Rabbit

/-- The options declared are without a fault. -/
theorem enter_options : NameIndex.enter [] 0 draft.options =
    .ok ((NameIndex.enter [] 0 draft.options).toOption.getD []) := by
  decide +kernel

/-- The schema of RabbitMQ connectors: the options declared make one. -/
def schema : Schema where
  toDraft := draft
  indexed := enter_options

/-- The options that a configuration has to set for what it says about dead letters. -/
def demandedLetters (config : Bound) : List String :=
  if config.contains "deadLetterQueue" ∨ config.contains "deadLetterRoutingKey" then
    ["deadLetterExchange"]
  else []

/-- The options that a configuration has to set for what it says, in the order in which they are
looked for. -/
def demanded (config : Bound) : List String :=
  "exchangeName" :: demandedLetters config

/-- A configuration keeps to what a broker and its protocol allow. -/
structure Limited (config : Bound) : Prop where
  /-- There is an exchange. -/
  exchangeName : config.contains "exchangeName" = true
  /-- A queue or a routing key for dead letters comes with an exchange for them. -/
  deadLetterExchange :
    config.contains "deadLetterQueue" = true ∨ config.contains "deadLetterRoutingKey" = true →
      config.contains "deadLetterExchange" = true
  /-- The number of messages sent ahead is one of 16 bits. -/
  prefetchCount : ∃ count, config.int? "prefetchCount" = some count ∧ 0 ≤ count ∧ count ≤ 65535
  /-- There is a consumer, and there may be as many as there are. -/
  consumers : ∃ count, config.int? "concurrentConsumers" = some count ∧ 1 ≤ count ∧
    ∀ most, config.int? "maxConcurrentConsumers" = some most → count ≤ most

namespace Settings

/-- The numbers of some settings are those that the protocol allows. -/
structure WithinLimits (settings : Settings) : Prop where
  /-- The number of messages sent ahead is one of 16 bits. -/
  prefetchCount : 0 ≤ settings.prefetchCount ∧ settings.prefetchCount ≤ 65535
  /-- There is a consumer. -/
  concurrentConsumers : 1 ≤ settings.concurrentConsumers
  /-- There may be as many consumers as there are. -/
  maxConcurrentConsumers : ∀ most, settings.maxConcurrentConsumers = some most →
    settings.concurrentConsumers ≤ most

/-- A span of time is the number of milliseconds that is configured, or none if that is negative. -/
def SpanOf (configured : Option Int) (span : Nat) : Prop :=
  ∃ milliseconds, configured = some milliseconds ∧ (span : Int) = max milliseconds 0

/-- Settings say what a configuration says. -/
structure Configured (settings : Settings) (config : Bound) : Prop where
  /-- The exchange. -/
  exchangeName : config.string? "exchangeName" = some settings.exchangeName
  /-- The exchange for dead letters. -/
  deadLetterExchange : config.string? "deadLetterExchange" = settings.deadLetter.map (·.exchange)
  /-- The number of messages sent ahead. -/
  prefetchCount : config.int? "prefetchCount" = some settings.prefetchCount
  /-- The number of consumers. -/
  concurrentConsumers : config.int? "concurrentConsumers" = some settings.concurrentConsumers
  /-- How many consumers there may be. -/
  maxConcurrentConsumers : config.int? "maxConcurrentConsumers" = settings.maxConcurrentConsumers
  /-- How long a shutdown waits. -/
  shutdownTimeout : SpanOf (config.long? "shutdownTimeout") settings.shutdownTimeout
  /-- How long a reply is waited for. -/
  replyTimeout : SpanOf (config.long? "replyTimeout") settings.replyTimeout
  /-- How long a message that failed waits. -/
  retryDelay : SpanOf (config.int? "retryDelay") settings.retry.delay

variable {config : Bound} {settings : Settings}

/-! ### Reading -/

theorem checks_deadLetterOf (hobeys : config.Obeys schema) :
    config.Checks (demandedLetters config) (deadLetterOf config) := by
  have hexchange :
      (config.string? "deadLetterExchange").isSome = config.contains "deadLetterExchange" :=
    hobeys.isSome_string? (by decide +kernel)
  unfold deadLetterOf demandedLetters
  dsimp only
  rw [hobeys.isSome_string? (by decide +kernel), hobeys.isSome_string? (by decide +kernel)]
  cases hset : config.string? "deadLetterExchange" with
  | some exchange =>
    -- An exchange may be set whether or not it is demanded.
    dsimp only
    rw [hobeys.parseEnum_bind exchangeTypes (by decide +kernel) (by decide +kernel)]
    refine .complete (Bound.lacking?_eq_none_iff.mpr fun option hoption ↦ ?_)
    split_ifs at hoption
    · rw [List.mem_singleton.mp hoption, ← hexchange, hset]
      rfl
    · cases hoption
  | none =>
    dsimp only
    split_ifs
    · exact .missing (by simp [Bound.lacking?, ← hexchange, hset])
    · exact Bound.checks_nil _

/-- Settings are read exactly if the exchanges that are called for are set. -/
theorem checks_ofBound (hobeys : config.Obeys schema) :
    config.Checks (demanded config) (ofBound config) := by
  unfold ofBound
  rw [demanded, ← List.append_nil (demandedLetters config)]
  refine (hobeys.checks_string (by decide +kernel)).bind fun exchangeName _ ↦ ?_
  refine (checks_deadLetterOf hobeys).bind fun deadLetter _ ↦ ?_
  rw [hobeys.parseEnum_bind exchangeTypes (by decide +kernel) (by decide +kernel)]
  exact Bound.checks_nil _

/-- Nothing else is demanded, so whoever keeps to it has settings. -/
theorem exists_ofBound_iff (hobeys : config.Obeys schema) :
    (∃ settings, ofBound config = .ok settings) ↔
      config.contains "exchangeName" = true ∧
        (config.contains "deadLetterQueue" = true ∨ config.contains "deadLetterRoutingKey" = true →
          config.contains "deadLetterExchange" = true) := by
  rw [(checks_ofBound hobeys).exists_ok_iff, demanded, List.forall_mem_cons, demandedLetters]
  refine and_congr_right fun _ ↦ ?_
  split_ifs with hletters
  · simp [hletters]
  · simp [hletters]

theorem deadLetterOf_eq_ok {letters : Option DeadLetter}
    (hread : deadLetterOf config = .ok letters) :
    config.string? "deadLetterExchange" = letters.map (·.exchange) := by
  unfold deadLetterOf at hread
  dsimp only at hread
  split at hread
  · next exchange hexchange =>
    obtain ⟨exchangeType, -, hread⟩ := Traversal.exists_of_bind_eq_ok hread
    obtain rfl := Except.ok.inj hread
    exact hexchange
  · next hexchange =>
    split_ifs at hread
    obtain rfl := Except.ok.inj hread
    exact hexchange

/-- A number that has a default is never left to the reader. -/
theorem spanOf_getD {configured : Option Int}
    (hset : ∃ milliseconds, configured = some milliseconds) (standard : Int) :
    SpanOf configured (configured.getD standard).toNat := by
  obtain ⟨milliseconds, rfl⟩ := hset
  exact ⟨milliseconds, rfl, Int.toNat_eq_max milliseconds⟩

/-- The settings that are read say what the configuration says. -/
theorem configured_of_ofBound (hobeys : config.Obeys schema)
    (hsettings : ofBound config = .ok settings) : settings.Configured config := by
  unfold ofBound at hsettings
  obtain ⟨exchangeName, hexchange, hrest⟩ := Traversal.exists_of_bind_eq_ok hsettings
  obtain ⟨deadLetter, hletters, hrest⟩ := Traversal.exists_of_bind_eq_ok hrest
  obtain ⟨exchangeType, -, hrest⟩ := Traversal.exists_of_bind_eq_ok hrest
  obtain rfl := Except.ok.inj hrest
  have hprefetch : ∃ count, config.int? "prefetchCount" = some count :=
    hobeys.exists_int? (by decide +kernel)
  have hconsumers : ∃ count, config.int? "concurrentConsumers" = some count :=
    hobeys.exists_int? (by decide +kernel)
  exact {
    exchangeName := Bound.eq_some_of_elim hexchange
    deadLetterExchange := deadLetterOf_eq_ok hletters
    prefetchCount := by
      obtain ⟨count, hcount⟩ := hprefetch
      simp [hcount]
    concurrentConsumers := by
      obtain ⟨count, hcount⟩ := hconsumers
      simp [hcount]
    maxConcurrentConsumers := rfl
    shutdownTimeout := spanOf_getD (hobeys.exists_long? (by decide +kernel)) 5000
    replyTimeout := spanOf_getD (hobeys.exists_long? (by decide +kernel)) 30000
    retryDelay := spanOf_getD (hobeys.exists_int? (by decide +kernel)) 1000 }

/-! ### Limits -/

theorem fault?_eq_none_iff : settings.fault? = none ↔ settings.WithinLimits := by
  unfold fault? maxPrefetch
  constructor
  · intro hnone
    split_ifs at hnone with hprefetch hconsumers
    refine ⟨hprefetch, not_lt.mp hconsumers, fun most hmost ↦ ?_⟩
    rw [hmost] at hnone
    dsimp only at hnone
    split_ifs at hnone with hfewer
    exact not_lt.mp hfewer
  · rintro ⟨hprefetch, hconsumers, hmost⟩
    rw [if_neg (not_not.mpr hprefetch), if_neg (not_lt.mpr hconsumers)]
    cases hheld : settings.maxConcurrentConsumers with
    | none => rfl
    | some most => exact if_neg (not_lt.mpr (hmost most hheld))

theorem Configured.withinLimits_iff (hconfigured : settings.Configured config) :
    settings.WithinLimits ↔
      (∃ count, config.int? "prefetchCount" = some count ∧ 0 ≤ count ∧ count ≤ 65535) ∧
        ∃ count, config.int? "concurrentConsumers" = some count ∧ 1 ≤ count ∧
          ∀ most, config.int? "maxConcurrentConsumers" = some most → count ≤ most := by
  rw [hconfigured.prefetchCount, hconfigured.concurrentConsumers,
    hconfigured.maxConcurrentConsumers]
  constructor
  · intro hlimits
    exact ⟨⟨_, rfl, hlimits.prefetchCount⟩, _, rfl, hlimits.concurrentConsumers,
      hlimits.maxConcurrentConsumers⟩
  · rintro ⟨⟨count, hcount, hprefetch⟩, consumers, hheld, hconsumers, hmost⟩
    obtain rfl := Option.some.inj hcount
    obtain rfl := Option.some.inj hheld
    exact ⟨hprefetch, hconsumers, hmost⟩

/-- A configuration keeps to the limits exactly if settings are read from it that keep to them. -/
theorem limited_iff (hobeys : config.Obeys schema) :
    Limited config ↔ ∃ settings, ofBound config = .ok settings ∧ settings.WithinLimits := by
  constructor
  · intro hlimited
    obtain ⟨settings, hsettings⟩ :=
      (exists_ofBound_iff hobeys).mpr ⟨hlimited.exchangeName, hlimited.deadLetterExchange⟩
    exact ⟨settings, hsettings, (configured_of_ofBound hobeys hsettings).withinLimits_iff.mpr
      ⟨hlimited.prefetchCount, hlimited.consumers⟩⟩
  · rintro ⟨settings, hsettings, hlimits⟩
    obtain ⟨hexchange, hletters⟩ := (exists_ofBound_iff hobeys).mp ⟨settings, hsettings⟩
    obtain ⟨hprefetch, hconsumers⟩ :=
      (configured_of_ofBound hobeys hsettings).withinLimits_iff.mp hlimits
    exact ⟨hexchange, hletters, hprefetch, hconsumers⟩

end Settings

/-! ### Activation -/

section Activation

variable {config : Bound} {settings : Settings} {factory : ObjectRef}

theorem prepare_eq_ok_iff : prepare config = .ok (settings, factory) ↔
    Settings.ofBound config = .ok settings ∧ settings.WithinLimits ∧
      config.object? factoryConcreteType "connectionFactory" = some factory := by
  rw [← Settings.fault?_eq_none_iff, ← Bound.requireObject_eq_some_iff]
  unfold prepare
  constructor
  · intro hprepare
    split at hprepare
    · cases hprepare
    next hsettings =>
    split at hprepare
    · cases hprepare
    next hfault =>
    split at hprepare
    · cases hprepare
    · cases hprepare
    next hfactory =>
    cases hprepare
    exact ⟨hsettings, hfault, hfactory⟩
  · rintro ⟨hsettings, hfault, hfactory⟩
    rw [hsettings]
    dsimp only
    rw [hfault, hfactory]

/-- A connector comes to its broker exactly if its configuration keeps to the limits and a
connection factory is there. -/
theorem exists_prepare_iff (hobeys : config.Obeys schema) :
    (∃ settled, prepare config = .ok settled) ↔
      Limited config ∧
        ∃ factory, config.object? factoryConcreteType "connectionFactory" = some factory := by
  rw [Settings.limited_iff hobeys]
  simp only [Prod.exists, prepare_eq_ok_iff]
  constructor
  · rintro ⟨settings, factory, hsettings, hlimits, hfactory⟩
    exact ⟨⟨settings, hsettings, hlimits⟩, factory, hfactory⟩
  · rintro ⟨⟨settings, hsettings, hlimits⟩, factory, hfactory⟩
    exact ⟨settings, factory, hsettings, hlimits, hfactory⟩

variable {σ : Type} {outside : Outside σ} {now : Calendar.Instant} {world : σ}
  {registry : Registry Factory} {id : String} {raw : RawValues} {resolver : Resolver}

/-- A factory that comes to its broker, or makes a connector, has checked the settings. -/
theorem exists_prepare_of_create
    (hreached : (Factory.rabbit.create outside now config world).requests ≠ [] ∨
      ∃ endpoint, (Factory.rabbit.create outside now config world).value.value = .ok endpoint) :
    ∃ settled, prepare config = .ok settled := by
  cases hprepare : prepare config with
  | ok settled => exact ⟨settled, rfl⟩
  | error error => simp [Factory.create, start, hprepare, Except.map, Except.mapError] at hreached

/-- Once the settings are checked, a factory makes a connector with them, unless the broker refuses
it. -/
theorem create_of_prepare (hprepare : prepare config = .ok (settings, factory)) :
    (Factory.rabbit.create outside now config world).value =
      ⟨0, ((connect (fun request ↦ outside.rabbit ⟨factory, request⟩) settings world).value.map
        fun _ ↦ .rabbit ⟨settings, factory, settings.autoStartup⟩).mapError .rabbit⟩ := by
  simp only [Factory.create, start, hprepare, Session.value_bind, Session.value_mapRequests,
    Session.value_pure]
  cases (connect (fun request ↦ outside.rabbit ⟨factory, request⟩) settings world).value <;> rfl

/-- So does an activation. It takes no time, so no limit keeps it from that. -/
theorem activate_of_prepare (hcomponent : registry.component id = .ok ⟨schema, .rabbit⟩)
    (hbound : (registry.binder.bind schema raw resolver).value = .ok config)
    (hprepare : prepare config = .ok (settings, factory)) :
    (registry.activate outside now id raw resolver world).value.value =
      ((connect (fun request ↦ outside.rabbit ⟨factory, request⟩) settings world).value.map fun _ ↦
        ⟨"spring-rabbitmq", .rabbit ⟨settings, factory, settings.autoStartup⟩⟩).mapError
          fun fault ↦ .factory "spring-rabbitmq" (.rabbit fault) := by
  rw [Registry.activate_of_bound hcomponent hbound, create_of_prepare hprepare]
  cases registry.timeout <;>
    cases (connect (fun request ↦ outside.rabbit ⟨factory, request⟩) settings world).value <;> rfl

/-- The connector that is made has the settings that were checked. -/
theorem endpoint_of_activate {activated : Activated}
    (hcomponent : registry.component id = .ok ⟨schema, .rabbit⟩)
    (hbound : (registry.binder.bind schema raw resolver).value = .ok config)
    (hprepare : prepare config = .ok (settings, factory))
    (hmade : (registry.activate outside now id raw resolver world).value.value = .ok activated) :
    activated.endpoint = .rabbit ⟨settings, factory, settings.autoStartup⟩ := by
  rw [activate_of_prepare hcomponent hbound hprepare] at hmade
  generalize (connect _ settings world).value = connected at hmade
  cases connected with
  | error fault => cases hmade
  | ok =>
    obtain rfl := Except.ok.inj hmade
    rfl

/-- A connector whose settings were checked is refused by the broker only. -/
theorem wraps_of_activate {error : ActivationError}
    (hcomponent : registry.component id = .ok ⟨schema, .rabbit⟩)
    (hbound : (registry.binder.bind schema raw resolver).value = .ok config)
    (hprepare : prepare config = .ok (settings, factory))
    (hfails : (registry.activate outside now id raw resolver world).value.value = .error error) :
    ∃ fault cause request, error = .factory "spring-rabbitmq" (.rabbit fault) ∧
      fault.Wraps cause request := by
  rw [activate_of_prepare hcomponent hbound hprepare] at hfails
  cases hconnected :
      (connect (fun request ↦ outside.rabbit ⟨factory, request⟩) settings world).value with
  | ok =>
    rw [hconnected] at hfails
    cases hfails
  | error fault =>
    rw [hconnected] at hfails
    obtain ⟨request, cause, -, hwraps⟩ := connect_eq_error hconnected
    exact ⟨fault, cause, request, (Except.error.inj hfails).symm, hwraps⟩

/-- An activation that comes to the broker, or makes a connector, has a configuration that keeps to
the limits. Its settings say what the configuration says, with spans of time that are negative
counted as none, and so keep to the limits too. The connector that is made has these settings. In
turn, an activation whose configuration keeps to the limits and has a connection factory fails only
for a request that the broker refuses. -/
theorem activation_within_limits {registry : Registry Factory} {id : String}
    (hcomponent : registry.component id = .ok ⟨schema, .rabbit⟩) (raw : RawValues)
    (resolver : Resolver) {σ : Type} (outside : Outside σ) (now : Calendar.Instant) (world : σ) :
    let outcome := registry.activate outside now id raw resolver world
    (outcome.requests ≠ [] ∨ (∃ activated, outcome.value.value = .ok activated) →
      ∃ config settings, (registry.binder.bind schema raw resolver).value = .ok config ∧
        Limited config ∧ settings.Configured config ∧ settings.WithinLimits ∧
        ∀ activated, outcome.value.value = .ok activated →
          ∃ factory running, activated.endpoint = .rabbit ⟨settings, factory, running⟩) ∧
    ∀ config, (registry.binder.bind schema raw resolver).value = .ok config → Limited config →
      (config.object? factoryConcreteType "connectionFactory").isSome = true →
      ∀ error, outcome.value.value = .error error →
        ∃ fault cause request, error = .factory "spring-rabbitmq" (.rabbit fault) ∧
          fault.Wraps cause request := by
  intro outcome
  constructor
  · intro hreached
    obtain ⟨config, hbound, hmade⟩ := Registry.exists_bound_of_activate hcomponent hreached
    have hobeys : config.Obeys schema := Binder.obeys_of_bind hbound
    obtain ⟨⟨settings, factory⟩, hprepare⟩ := exists_prepare_of_create hmade
    obtain ⟨hsettings, hlimits, -⟩ := prepare_eq_ok_iff.mp hprepare
    exact ⟨config, settings, hbound,
      (Settings.limited_iff hobeys).mpr ⟨settings, hsettings, hlimits⟩,
      Settings.configured_of_ofBound hobeys hsettings, hlimits, fun activated hactivated ↦
        ⟨factory, settings.autoStartup, endpoint_of_activate hcomponent hbound hprepare hactivated⟩⟩
  · intro config hbound hlimited hfactory error hfails
    obtain ⟨⟨settings, factory⟩, hprepare⟩ :=
      (exists_prepare_iff (Binder.obeys_of_bind hbound)).mpr
        ⟨hlimited, Option.isSome_iff_exists.mp hfactory⟩
    exact wraps_of_activate hcomponent hbound hprepare hfails

/-- A connector with as many messages sent ahead as there may be, and a span of time that is
negative, is made. With one message more nothing is asked of the broker, and a broker that refuses
the first does so for a reason of its own. -/
theorem activation_within_limits_prefetch :
    let raw (prefetch : String) : RawValues := [("exchange-name", .text "orders"),
      ("prefetch.count", .text prefetch), ("MAX_CONCURRENT_CONSUMERS", .text "1"),
      ("deadLetterQueue", .text "failed"), ("deadLetterExchange", .text "letters"),
      ("shutdownTimeout", .text "-1"), ("testConnectionOnStartup", .text "true")]
    let factory : ObjectRef := ⟨1, factoryType, factoryConcreteType⟩
    let resolver := (BeanRegistry.empty.insert "broker" factory).resolver
    let config (prefetch : Int) : Bound := ⟨schema,
      [some (.string "orders"), some (.enum "direct"), none, none, some (.object factory),
        some (.bool true), some (.bool false), some (.bool true), some (.bool false), some (.int 1),
        some (.int 1), some (.string "letters"), some (.enum "direct"), some (.string "failed"),
        none, some (.int 5), some (.int prefetch), some (.bool true), some (.int 1000),
        some (.long (-1)), some (.bool false), some (.long 30000), some (.bool false)]⟩
    let registry : Registry Factory := { entries := [("springrabbitmq", ⟨schema, .rabbit⟩)] }
    let outside (reply : Except String Unit) : Outside Nat := {
      kinesis := fun _ asked ↦ (.ok [], asked + 1)
      rabbit := fun _ asked ↦ (reply, asked + 1)
      calendar := fun _ asked ↦ (.ok (), asked + 1) }
    let outcome (reply : Except String Unit) (prefetch : String) :=
      registry.activate (outside reply) 0 "spring-rabbitmq" (raw prefetch) resolver 0
    registry.component "spring-rabbitmq" = .ok ⟨schema, .rabbit⟩ ∧
      (({} : Binder).bind schema (raw "65535") resolver).value = .ok (config 65535) ∧
      Limited (config 65535) ∧
      (∃ settings, settings.Configured (config 65535) ∧ settings.shutdownTimeout = 0 ∧
        ∃ activated, (outcome (.ok ()) "65535").value.value = .ok activated ∧
          ∃ factory running, activated.endpoint = .rabbit ⟨settings, factory, running⟩) ∧
      (outcome (.ok ()) "65536").requests = [] ∧
      ∃ fault cause request,
        (outcome (.error "no route") "65535").value.value =
            .error (.factory "spring-rabbitmq" (.rabbit fault)) ∧
          fault.Wraps cause request := by
  intro raw factory resolver config registry outside outcome
  -- Names are compared many times over here, so all that is evaluated is evaluated at once.
  have hfacts : (({} : Binder).bind schema (raw "65535") resolver).value = .ok (config 65535) ∧
      (({} : Binder).bind schema (raw "65536") resolver).value = .ok (config 65536) ∧
      (outcome (.ok ()) "65535").value.value.toOption.isSome = true ∧
      (outcome (.error "no route") "65535").value.value.toOption.isSome = false ∧
      (config 65535).long? "shutdownTimeout" = some (-1) ∧
      (config 65536).int? "prefetchCount" = some 65536 ∧
      ((config 65535).object? factoryConcreteType "connectionFactory").isSome = true := by
    decide +kernel
  obtain ⟨hbound, hmore, hmade, hdenied, hspan, hprefetch, hfactory⟩ := hfacts
  have hcomponent : registry.component "spring-rabbitmq" = .ok ⟨schema, .rabbit⟩ :=
    Registry.component_singleton (by decide +kernel) _ _ _
  have hactivated : ∃ activated, (outcome (.ok ()) "65535").value.value = .ok activated := by
    cases hvalue : (outcome (.ok ()) "65535").value.value with
    | ok activated => exact ⟨activated, rfl⟩
    | error error =>
      rw [hvalue] at hmade
      cases hmade
  obtain ⟨activated, hvalue⟩ := hactivated
  obtain ⟨held, settings, hheld, hlimited, hconfigured, -, hendpoint⟩ :=
    (activation_within_limits hcomponent (raw "65535") resolver (outside (.ok ())) 0 0).1
      (.inr ⟨activated, hvalue⟩)
  obtain rfl : config 65535 = held := Except.ok.inj (hbound.symm.trans hheld)
  have hshutdown : settings.shutdownTimeout = 0 := by
    obtain ⟨milliseconds, hset, heq⟩ := hconfigured.shutdownTimeout
    obtain rfl := Option.some.inj (hspan.symm.trans hset)
    omega
  refine ⟨hcomponent, hbound, hlimited, ⟨settings, hconfigured, hshutdown, activated, hvalue,
    hendpoint activated hvalue⟩, ?_, ?_⟩
  · by_contra hasked
    obtain ⟨held, -, hheld, hlimited, -⟩ :=
      (activation_within_limits hcomponent (raw "65536") resolver (outside (.ok ())) 0 0).1
        (.inl hasked)
    obtain rfl : config 65536 = held := Except.ok.inj (hmore.symm.trans hheld)
    obtain ⟨count, hcount, -, hmost⟩ := hlimited.prefetchCount
    obtain rfl := Option.some.inj (hprefetch.symm.trans hcount)
    omega
  · cases hrefused : (outcome (.error "no route") "65535").value.value with
    | ok activated =>
      rw [hrefused] at hdenied
      cases hdenied
    | error error =>
      obtain ⟨fault, cause, request, rfl, hwraps⟩ :=
        (activation_within_limits hcomponent (raw "65535") resolver (outside (.error "no route"))
          0 0).2 _ hbound hlimited hfactory error hrefused
      exact ⟨fault, cause, request, rfl, hwraps⟩

end Activation

end Connectors.Rabbit
