import Connectors.Proofs.Registry.Exported
import Connectors.Proofs.Registry.Failures

/-!
# Components in every spelling of their ids

Components are registered one after another, and registering stops at the first whose id is a
spelling of one before it (`Registry.FirstRepeated`). As long as there is none, each component is
filed under the normal form of its id and no other takes its place
(`Registry.registerEach_eq_ok_iff`). So the registry is known by the components that it was given,
whatever their order (`Registry.registerEach_perm`), and an id leads to the component of which it is
a spelling (`Registry.component_eq_ok_iff_mem`).

Whatever is asked of a registry by id, all spellings of one id have one answer, which is that of the
component (`Registry.Known`), and an id that is a spelling of none is unknown to every question
(`Registry.Unknown`). Binding and activation each look the component up and bind its values for
themselves; they are refused together (`Registry.RefusesAlike`).
`Registry.registered_up_to_spelling` states all of this of the registries that are built.
-/

set_option autoImplicit false
set_option relaxedAutoImplicit false

namespace Connectors

/-- The normal form of a component's id. -/
def Component.form {φ : Type} (component : Component φ) : String :=
  Key.normal component.schema.id

/-- A component under the normal form of its id. -/
def Component.filed {φ : Type} (component : Component φ) : String × Component φ :=
  (component.form, component)

namespace Registry

/-! ### Registering one after another -/

section Registering

variable {φ : Type}

/-- The registry with components added, one after another, up to the first that is refused. -/
def registerEach (registry : Registry φ) : List (Component φ) → Except SchemaError (Registry φ)
  | [] => .ok registry
  | component :: rest => do
    let next ← registry.register component.schema component.factory
    next.registerEach rest

/-- The first of some components that repeats an id, in some spelling, and how it is refused. -/
inductive FirstRepeated : List (Component φ) → SchemaError → Prop
  | intro {before after : List (Component φ)} {earlier repeated : Component φ}
      (hbefore : (before.map Component.form).Nodup) (hearlier : earlier ∈ before)
      (hform : earlier.form = repeated.form) :
      FirstRepeated (before ++ repeated :: after) (.duplicateComponent repeated.schema.id)

variable {registry next : Registry φ} {schema : Schema} {factory : φ} {id : String}
  {component : Component φ} {calls others : List (Component φ)} {error : SchemaError}
  {binder : Binder} {timeout : Option Nat}

/-- A component is refused exactly if there is one whose id has the same normal form. -/
theorem register_eq_error_iff :
    registry.register schema factory = .error error ↔
      Key.normal schema.id ∈ Fields.names registry.entries ∧
        error = .duplicateComponent schema.id := by
  have hmem : Key.normal schema.id ∈ Fields.names registry.entries ↔
      Fields.get? (Key.normal schema.id) registry.entries ≠ none := by
    rw [Ne, Fields.get?_eq_none_iff, not_not]
  rw [hmem, Registry.register, contains, entry?]
  cases Fields.get? (Key.normal schema.id) registry.entries <;> simp [eq_comm]

theorem registerEach_append (registry : Registry φ) (calls others : List (Component φ)) :
    registry.registerEach (calls ++ others) =
      registry.registerEach calls >>= fun next ↦ next.registerEach others := by
  induction calls generalizing registry with
  | nil => rfl
  | cons component rest ih =>
    rw [List.cons_append, registerEach, registerEach, bind_assoc]
    exact bind_congr fun next ↦ ih next

theorem registerEach_cons_of_ok
    (hregister : registry.register component.schema component.factory = .ok next)
    (rest : List (Component φ)) :
    registry.registerEach (component :: rest) = next.registerEach rest := by
  rw [registerEach, hregister]
  rfl

theorem registerEach_cons_of_error
    (hregister : registry.register component.schema component.factory = .error error)
    (rest : List (Component φ)) : registry.registerEach (component :: rest) = .error error := by
  rw [registerEach, hregister]
  rfl

theorem registerEach_cons_eq_ok_iff : registry.registerEach (component :: calls) = .ok next ↔
    ∃ middle, registry.register component.schema component.factory = .ok middle ∧
      middle.registerEach calls = .ok next := by
  refine ⟨Traversal.exists_of_bind_eq_ok, ?_⟩
  rintro ⟨middle, hmiddle, hnext⟩
  exact (registerEach_cons_of_ok hmiddle calls).trans hnext

/-- The forms of some components are new after another component was filed exactly if they were
before, and none of them is the form of that component. -/
theorem new_after_put_iff {fields : Fields (Component φ)} {held : Component φ} :
    (∀ later ∈ calls, later.form ∉ Fields.names (Fields.put component.form held fields)) ↔
      component.form ∉ calls.map Component.form ∧
        ∀ later ∈ calls, later.form ∉ Fields.names fields := by
  simp only [Fields.mem_names_put, not_or, List.mem_map, not_exists, not_and]
  exact forall₂_and

/-- Components are all registered exactly if the normal forms of their ids are new and different.
Each is then filed under its normal form. -/
theorem registerEach_eq_ok_iff : registry.registerEach calls = .ok next ↔
    (∀ component ∈ calls, component.form ∉ Fields.names registry.entries) ∧
      (calls.map Component.form).Nodup ∧
      next = { registry with
        entries := Fields.putAll registry.entries (calls.map Component.filed) } := by
  induction calls generalizing registry with
  | nil => simp [registerEach, Fields.putAll, eq_comm]
  | cons component rest ih =>
    -- The rest is registered after the first one, so it must be new beside this one too.
    simp only [registerEach_cons_eq_ok_iff, register_eq_ok_iff, ih]
    constructor
    · rintro ⟨_, ⟨hnew, rfl⟩, hlater, hdistinct, rfl⟩
      obtain ⟨hother, hrest⟩ := new_after_put_iff.mp hlater
      exact ⟨List.forall_mem_cons.mpr ⟨hnew, hrest⟩, List.nodup_cons.mpr ⟨hother, hdistinct⟩, rfl⟩
    · rintro ⟨hnew, hdistinct, rfl⟩
      obtain ⟨hfirst, hrest⟩ := List.forall_mem_cons.mp hnew
      obtain ⟨hother, hdistinct⟩ := List.nodup_cons.mp hdistinct
      exact ⟨_, ⟨hfirst, rfl⟩, new_after_put_iff.mpr ⟨hother, hrest⟩, hdistinct, rfl⟩

/-- Registering fails at the first component that is refused after those before it are
registered. -/
theorem registerEach_eq_error_iff : registry.registerEach calls = .error error ↔
    ∃ before repeated after reached, calls = before ++ repeated :: after ∧
      registry.registerEach before = .ok reached ∧
      reached.register repeated.schema repeated.factory = .error error := by
  constructor
  · intro hfails
    induction calls generalizing registry with
    | nil => cases hfails
    | cons component rest ih =>
      cases hregister : registry.register component.schema component.factory with
      | error refusal =>
        rw [registerEach_cons_of_error hregister] at hfails
        exact ⟨[], component, rest, registry, rfl, rfl, Except.error.inj hfails ▸ hregister⟩
      | ok next =>
        rw [registerEach_cons_of_ok hregister] at hfails
        obtain ⟨before, repeated, after, reached, rfl, hbefore, hrepeated⟩ := ih hfails
        exact ⟨component :: before, repeated, after, reached, rfl,
          (registerEach_cons_of_ok hregister before).trans hbefore, hrepeated⟩
  · rintro ⟨before, repeated, after, reached, rfl, hbefore, hrepeated⟩
    rw [registerEach_append, hbefore]
    exact registerEach_cons_of_error hrepeated after

/-- From the beginning components are all registered exactly if the normal forms of their ids are
different. -/
theorem registerEach_start_eq_ok_iff :
    ({ binder, timeout } : Registry φ).registerEach calls = .ok registry ↔
      (calls.map Component.form).Nodup ∧
        registry = { entries := Fields.ofList (calls.map Component.filed), binder, timeout } := by
  rw [registerEach_eq_ok_iff]
  exact and_iff_right fun _ _ ↦ List.not_mem_nil

theorem ofList_filed_perm (hforms : (calls.map Component.form).Nodup) :
    (Fields.ofList (calls.map Component.filed)).Perm (calls.map Component.filed) := by
  refine Fields.ofList_perm ?_
  rwa [List.map_map]

/-- Whatever their order, components make one registry. -/
theorem registerEach_perm (hperm : others.Perm calls)
    (hcalls : ({ binder, timeout } : Registry φ).registerEach calls = .ok registry) :
    ({ binder, timeout } : Registry φ).registerEach others = .ok registry := by
  obtain ⟨hforms, rfl⟩ := registerEach_start_eq_ok_iff.mp hcalls
  have hothers : (others.map Component.form).Nodup := (hperm.map _).nodup_iff.mpr hforms
  refine registerEach_start_eq_ok_iff.mpr ⟨hothers, ?_⟩
  congr 1
  refine (Fields.ordered_ofList _).eq_of_perm (Fields.ordered_ofList _) ?_
  exact (ofList_filed_perm hforms).trans ((hperm.map _).symm.trans (ofList_filed_perm hothers).symm)

/-- The normal forms under which components are filed are those of their ids. -/
theorem mem_names_of_registerEach {form : String}
    (hcalls : ({ binder, timeout } : Registry φ).registerEach calls = .ok registry) :
    form ∈ Fields.names registry.entries ↔ ∃ earlier ∈ calls, earlier.form = form := by
  obtain ⟨hforms, rfl⟩ := registerEach_start_eq_ok_iff.mp hcalls
  rw [Fields.names, ((ofList_filed_perm hforms).map _).mem_iff, List.map_map]
  exact List.mem_map

/-- From the beginning registering fails exactly at the first component that repeats an id. -/
theorem registerEach_start_eq_error_iff :
    ({ binder, timeout } : Registry φ).registerEach calls = .error error ↔
      FirstRepeated calls error := by
  rw [registerEach_eq_error_iff]
  constructor
  · rintro ⟨before, repeated, after, reached, rfl, hbefore, hrepeated⟩
    obtain ⟨hmem, rfl⟩ := register_eq_error_iff.mp hrepeated
    obtain ⟨earlier, hearlier, hform⟩ := (mem_names_of_registerEach hbefore).mp hmem
    exact .intro (registerEach_start_eq_ok_iff.mp hbefore).1 hearlier hform
  · rintro ⟨hbefore, hearlier, hform⟩
    have hreached : ({ binder, timeout } : Registry φ).registerEach _ = .ok _ :=
      registerEach_start_eq_ok_iff.mpr ⟨hbefore, rfl⟩
    refine ⟨_, _, _, _, rfl, hreached, register_eq_error_iff.mpr ⟨?_, rfl⟩⟩
    exact (mem_names_of_registerEach hreached).mpr ⟨_, hearlier, hform⟩

/-- An id leads to the component of which it is a spelling. -/
theorem component_eq_ok_iff_mem
    (hcalls : ({ binder, timeout } : Registry φ).registerEach calls = .ok registry) :
    registry.component id = .ok component ↔ component ∈ calls ∧ component.form = Key.normal id := by
  obtain ⟨hforms, rfl⟩ := registerEach_start_eq_ok_iff.mp hcalls
  rw [component_eq_ok_iff, entry?, Fields.get?_eq_some_iff (Fields.ordered_ofList _).nodup_names,
    (ofList_filed_perm hforms).mem_iff, List.mem_map]
  constructor
  · rintro ⟨held, hheld, hfiled⟩
    obtain ⟨hform, rfl⟩ := Prod.mk.inj hfiled
    exact ⟨hheld, hform⟩
  · rintro ⟨hmem, hform⟩
    exact ⟨component, hmem, Prod.ext hform rfl⟩

/-- An id that leads to no component is reported as it is given. -/
theorem error_of_component (hunknown : registry.component id = .error error) :
    error = .unknownComponent id := by
  unfold Registry.component at hunknown
  cases hentry : registry.entry? id <;> simp_all

/-- An id leads to a component unless it is a spelling of none. -/
theorem component_eq_error_iff
    (hcalls : ({ binder, timeout } : Registry φ).registerEach calls = .ok registry) :
    registry.component id = .error (.unknownComponent id) ↔
      ∀ component ∈ calls, component.form ≠ Key.normal id := by
  cases hcomponent : registry.component id with
  | ok component =>
    obtain ⟨hmem, hform⟩ := (component_eq_ok_iff_mem hcalls).mp hcomponent
    exact iff_of_false nofun fun hnone ↦ hnone component hmem hform
  | error error =>
    refine iff_of_true (congrArg _ (error_of_component hcomponent)) fun component hmem hform ↦ ?_
    cases hcomponent.symm.trans ((component_eq_ok_iff_mem hcalls).mpr ⟨hmem, hform⟩)

end Registering

/-! ### Answers -/

variable {registry : Registry Factory} {component : Component Factory} {id : String}

/-- What a registry answers about an id in a spelling of a component's. -/
structure Known (registry : Registry Factory) (component : Component Factory) (id : String) :
    Prop where
  /-- The component is there. -/
  contains : registry.contains id = true
  /-- Its schema is found. -/
  lookup : registry.lookup id = .ok component.schema
  /-- Its values are bound as its schema asks. -/
  bind : ∀ raw resolver, registry.bind id raw resolver =
    (registry.binder.bind component.schema raw resolver).map (·.mapError .bind)
  /-- It is activated as under its declared id. -/
  activate : ∀ {σ : Type} (outside : Outside σ) now raw resolver,
    registry.activate outside now id raw resolver =
      registry.activate outside now component.schema.id raw resolver
  /-- A failure of its factory is reported under its declared id. -/
  declared : ∀ {σ : Type} (outside : Outside σ) now raw resolver (world : σ) name fault,
    (registry.activate outside now id raw resolver world).value.value =
        .error (.factory name fault) →
      name = component.schema.id

/-- What a registry answers about an id in a spelling of none of its components'. The id is reported
as it is given, and nothing else is done. -/
structure Unknown (registry : Registry Factory) (id : String) : Prop where
  /-- There is no component. -/
  contains : registry.contains id = false
  /-- There is no schema. -/
  lookup : registry.lookup id = .error (.unknownComponent id)
  /-- Nothing is bound. -/
  bind : ∀ raw resolver,
    registry.bind id raw resolver = ⟨[], .error (.schema (.unknownComponent id))⟩
  /-- Nothing is activated. -/
  activate : ∀ {σ : Type} (outside : Outside σ) now raw resolver (world : σ),
    registry.activate outside now id raw resolver world =
      ⟨[], ⟨0, .error (.lookup (.schema (.unknownComponent id)))⟩, world⟩

/-- An activation is refused before it comes to the factory exactly if the binding is refused. -/
structure RefusesAlike (registry : Registry Factory) (id : String) (raw : RawValues)
    (resolver : Resolver) : Prop where
  /-- The two are refused together, for the same reason. -/
  reason : ∀ {σ : Type} (outside : Outside σ) now (world : σ) refusal,
    (registry.activate outside now id raw resolver world).value.value = .error (.lookup refusal) ↔
      (registry.bind id raw resolver).value = .error refusal
  /-- The activation then reports what the binding reports, takes no time, asks for nothing and
  changes nothing. -/
  untouched : ∀ {σ : Type} (outside : Outside σ) now (world : σ) refusal,
    (registry.bind id raw resolver).value = .error refusal →
      registry.activate outside now id raw resolver world =
        ⟨(registry.bind id raw resolver).events.map .event, ⟨0, .error (.lookup refusal)⟩, world⟩
  /-- Another factory with the schema would make no difference. -/
  unasked : ∀ {σ : Type} (outside : Outside σ) now (world : σ) refusal (other : Registry Factory),
    (registry.bind id raw resolver).value = .error refusal → other.binder = registry.binder →
      other.lookup id = registry.lookup id →
        other.activate outside now id raw resolver world =
          registry.activate outside now id raw resolver world

section Activation

variable {σ : Type} {outside : Outside σ} {now : Calendar.Instant} {raw : RawValues}
  {resolver : Resolver} {world : σ}

theorem activate_of_unknown {error : SchemaError}
    (hcomponent : registry.component id = .error error) :
    registry.activate outside now id raw resolver world =
      ⟨[], ⟨0, .error (.lookup (.schema error))⟩, world⟩ := by
  rw [Registry.activate, hcomponent]
  rfl

/-- A binding depends on the schema that is looked up and on the binder. -/
theorem bind_eq_of_lookup : registry.bind id raw resolver =
    match registry.lookup id with
    | .error error => ⟨[], .error (.schema error)⟩
    | .ok schema => (registry.binder.bind schema raw resolver).map (·.mapError .bind) := by
  rw [Registry.bind, lookup]
  cases registry.component id <;> rfl

/-- What is bound is bound for the component that the id leads to. -/
theorem bound_of_bind {config : Bound}
    (hbind : (registry.bind id raw resolver).value = .ok config) :
    ∃ component, registry.component id = .ok component ∧
      (registry.binder.bind component.schema raw resolver).value = .ok config := by
  unfold Registry.bind at hbind
  cases hcomponent : registry.component id with
  | error error => simp [hcomponent] at hbind
  | ok component =>
    cases hvalue : (registry.binder.bind component.schema raw resolver).value with
    | error error => simp [hcomponent, Logged.map, hvalue, Except.mapError] at hbind
    | ok held =>
      obtain rfl : held = config := by
        simpa [hcomponent, Logged.map, hvalue, Except.mapError] using hbind
      exact ⟨component, rfl, hvalue⟩

/-- While its values are refused, nothing of a component matters to an activation but its schema. -/
theorem activate_of_refused {refusal : BindError}
    (hcomponent : registry.component id = .ok component)
    (hrefused : (registry.binder.bind component.schema raw resolver).value = .error refusal) :
    registry.activate outside now id raw resolver world =
      ⟨(registry.binder.bind component.schema raw resolver).events.map .event,
        ⟨0, .error (.lookup (.bind refusal))⟩, world⟩ := by
  simp only [Registry.activate, hcomponent, Bind.bind, Session.ofLogged, hrefused, pure,
    List.append_nil]

/-- Once its values are bound, an activation has what the factory of the component makes of them. -/
theorem activate_of_bound {config : Bound} (hcomponent : registry.component id = .ok component)
    (hbound : (registry.binder.bind component.schema raw resolver).value = .ok config) :
    (registry.activate outside now id raw resolver world).value.value =
      (((component.factory.create outside now config world).value.within registry.timeout).value.map
        (Activated.mk component.schema.id)).mapError (.factory component.schema.id) := by
  simp only [Registry.activate, hcomponent, Session.value_bind, Session.value_ofLogged, hbound,
    Session.world_ofLogged, Session.value_pure]

/-- Once its values are bound, an activation asks for what the factory of the component asks for. -/
theorem requests_of_bound {config : Bound} (hcomponent : registry.component id = .ok component)
    (hbound : (registry.binder.bind component.schema raw resolver).value = .ok config) :
    (registry.activate outside now id raw resolver world).requests =
      (component.factory.create outside now config world).requests := by
  simp only [Registry.activate, hcomponent, Session.requests_bind, Session.requests_ofLogged,
    Session.value_ofLogged, Session.world_ofLogged, hbound, Session.requests_pure, List.nil_append,
    List.append_nil]

/-- Once its values are bound, the endpoint of an activation is the one that the factory makes. -/
theorem create_of_activate {config : Bound} {activated : Activated}
    (hcomponent : registry.component id = .ok component)
    (hbound : (registry.binder.bind component.schema raw resolver).value = .ok config)
    (hmade : (registry.activate outside now id raw resolver world).value.value = .ok activated) :
    activated.component = component.schema.id ∧
      (component.factory.create outside now config world).value.value = .ok activated.endpoint := by
  rw [activate_of_bound hcomponent hbound] at hmade
  generalize (component.factory.create outside now config world).value = made at hmade ⊢
  cases hwithin : (made.within registry.timeout).value with
  | error fault =>
    rw [hwithin] at hmade
    cases hmade
  | ok endpoint =>
    rw [hwithin] at hmade
    obtain rfl := Except.ok.inj hmade
    refine ⟨rfl, ?_⟩
    unfold Awaited.within at hwithin
    split at hwithin
    · exact hwithin
    · split_ifs at hwithin
      exact hwithin

/-- An activation that asks for something, or makes an endpoint, has bound its values, and its
factory does so with what is bound. -/
theorem exists_bound_of_activate (hcomponent : registry.component id = .ok component)
    (hreached : (registry.activate outside now id raw resolver world).requests ≠ [] ∨
      ∃ activated,
        (registry.activate outside now id raw resolver world).value.value = .ok activated) :
    ∃ config, (registry.binder.bind component.schema raw resolver).value = .ok config ∧
      ((component.factory.create outside now config world).requests ≠ [] ∨
        ∃ endpoint,
          (component.factory.create outside now config world).value.value = .ok endpoint) := by
  cases hbound : (registry.binder.bind component.schema raw resolver).value with
  | error refusal =>
    rw [activate_of_refused hcomponent hbound] at hreached
    obtain hasked | ⟨activated, hmade⟩ := hreached
    · simp [Session.Outcome.requests, List.filterMap_map] at hasked
    · cases hmade
  | ok config =>
    rw [requests_of_bound hcomponent hbound] at hreached
    refine ⟨config, rfl, hreached.imp_right fun hmade ↦ ?_⟩
    obtain ⟨activated, hactivated⟩ := hmade
    exact ⟨_, (create_of_activate hcomponent hbound hactivated).2⟩

/-- Once its values are bound, an activation fails only as the factory does, under the declared
id. -/
theorem eq_factory_of_activate {config : Bound} {error : ActivationError}
    (hcomponent : registry.component id = .ok component)
    (hbound : (registry.binder.bind component.schema raw resolver).value = .ok config)
    (hfails : (registry.activate outside now id raw resolver world).value.value = .error error) :
    ∃ fault, error = .factory component.schema.id fault := by
  rw [activate_of_bound hcomponent hbound] at hfails
  obtain ⟨fault, -, hfault⟩ := eq_error_of_renamed hfails
  exact ⟨fault, hfault⟩

/-- A factory that fails is that of the component that the id leads to. -/
theorem name_of_activate {name : String} {fault : FactoryError}
    (hcomponent : registry.component id = .ok component)
    (hfails : (registry.activate outside now id raw resolver world).value.value =
      .error (.factory name fault)) : name = component.schema.id := by
  cases hbind : (registry.binder.bind component.schema raw resolver).value with
  | error refusal =>
    rw [activate_of_refused hcomponent hbind] at hfails
    cases hfails
  | ok config =>
    obtain ⟨held, hheld⟩ := eq_factory_of_activate hcomponent hbind hfails
    exact (ActivationError.factory.inj hheld).1

/-- A binding that is refused is all that there is of the activation. -/
theorem activate_of_bind_eq_error {refusal : LookupError}
    (hrefused : (registry.bind id raw resolver).value = .error refusal) :
    registry.activate outside now id raw resolver world =
      ⟨(registry.bind id raw resolver).events.map .event,
        ⟨0, .error (.lookup refusal)⟩, world⟩ := by
  unfold Registry.bind at hrefused ⊢
  cases hcomponent : registry.component id with
  | error error =>
    obtain rfl : .schema error = refusal := by simpa [hcomponent] using hrefused
    exact activate_of_unknown hcomponent
  | ok component =>
    cases hvalue : (registry.binder.bind component.schema raw resolver).value with
    | error error =>
      obtain rfl : .bind error = refusal := by
        simpa [hcomponent, Logged.map, hvalue, Except.mapError] using hrefused
      exact activate_of_refused hcomponent hvalue
    | ok config => simp [hcomponent, Logged.map, hvalue, Except.mapError] at hrefused

theorem activate_eq_lookup_iff {refusal : LookupError} :
    (registry.activate outside now id raw resolver world).value.value = .error (.lookup refusal) ↔
      (registry.bind id raw resolver).value = .error refusal := by
  refine ⟨fun hfails ↦ ?_, fun hrefused ↦ by rw [activate_of_bind_eq_error hrefused]⟩
  cases hbinding : (registry.bind id raw resolver).value with
  | error held =>
    rw [activate_of_bind_eq_error hbinding] at hfails
    exact congrArg _ (ActivationError.lookup.inj (Except.error.inj hfails))
  | ok config =>
    obtain ⟨component, hcomponent, hbound⟩ := bound_of_bind hbinding
    obtain ⟨fault, hfault⟩ := eq_factory_of_activate hcomponent hbound hfails
    cases hfault

end Activation

/-- An id that leads to a component is answered for the component, if its declared id leads to it
too. -/
theorem known_of_component (hcomponent : registry.component id = .ok component)
    (hdeclared : registry.component component.schema.id = .ok component) :
    registry.Known component id where
  contains := contains_iff.mpr ⟨component, hcomponent⟩
  lookup := by
    rw [lookup, hcomponent]
    rfl
  bind raw resolver := by rw [Registry.bind, hcomponent]
  activate outside now raw resolver := by
    rw [Registry.activate, Registry.activate, hcomponent, hdeclared]
  declared _ _ _ _ _ _ _ := name_of_activate hcomponent

theorem unknown_iff :
    registry.Unknown id ↔ registry.component id = .error (.unknownComponent id) := by
  constructor
  · intro hunknown
    cases hcomponent : registry.component id with
    | ok component =>
      cases (contains_iff.mpr ⟨component, hcomponent⟩).symm.trans hunknown.contains
    | error error => rw [error_of_component hcomponent]
  · intro hcomponent
    exact {
      contains := by
        rw [← Bool.not_eq_true, contains_iff, hcomponent]
        exact nofun
      lookup := by
        rw [lookup, hcomponent]
        rfl
      bind := fun raw resolver ↦ by rw [Registry.bind, hcomponent]
      activate := fun _ _ _ _ _ ↦ activate_of_unknown hcomponent }

/-- Binding and activation are refused together. -/
theorem refusesAlike (registry : Registry Factory) (id : String) (raw : RawValues)
    (resolver : Resolver) : registry.RefusesAlike id raw resolver where
  reason _ _ _ _ := activate_eq_lookup_iff
  untouched _ _ _ _ := activate_of_bind_eq_error
  unasked outside now world refusal other hrefused hbinder hlookup := by
    have hsame : other.bind id raw resolver = registry.bind id raw resolver := by
      rw [bind_eq_of_lookup, bind_eq_of_lookup, hbinder, hlookup]
    rw [activate_of_bind_eq_error hrefused, activate_of_bind_eq_error (hsame ▸ hrefused), hsame]

/-- Registering fails exactly at the first component whose id is a spelling of one before it. The
registry that is built of others refuses the spellings of their ids and no other ids. Asked by id,
it answers for the component of which the id is a spelling, in all of its spellings alike, and an id
that is a spelling of none is unknown. An activation is refused for the id or the values exactly if
the binding is, for the same reason and without coming to the factory. The order in which the
components are registered does not matter: the registry is the same. -/
theorem registered_up_to_spelling (binder : Binder) (timeout : Option Nat)
    (calls : List (Component Factory)) :
    let start : Registry Factory := { binder, timeout }
    (∀ error, start.registerEach calls = .error error ↔ FirstRepeated calls error) ∧
    ∀ registry, start.registerEach calls = .ok registry →
      (∀ schema factory error, registry.register schema factory = .error error ↔
        (∃ earlier ∈ calls, Key.normal earlier.schema.id = Key.normal schema.id) ∧
          error = .duplicateComponent schema.id) ∧
      (∀ component ∈ calls, ∀ id, Key.normal id = Key.normal component.schema.id →
        registry.Known component id) ∧
      (∀ id, registry.Unknown id ↔
        ∀ component ∈ calls, Key.normal id ≠ Key.normal component.schema.id) ∧
      (∀ id raw resolver, registry.RefusesAlike id raw resolver) ∧
      ∀ others, others.Perm calls → start.registerEach others = .ok registry := by
  intro start
  refine ⟨fun _ ↦ registerEach_start_eq_error_iff, fun registry hcalls ↦
    ⟨fun schema factory error ↦ ?_, fun component hmem id hid ↦ ?_, fun id ↦ ?_,
      refusesAlike registry, fun others hperm ↦ registerEach_perm hperm hcalls⟩⟩
  · rw [register_eq_error_iff, mem_names_of_registerEach hcalls]
    rfl
  · exact known_of_component ((component_eq_ok_iff_mem hcalls).mpr ⟨hmem, hid.symm⟩)
      ((component_eq_ok_iff_mem hcalls).mpr ⟨hmem, rfl⟩)
  · rw [unknown_iff, component_eq_error_iff hcalls]
    simp only [Component.form, ne_comm]

/-- Two components are registered, in either order, and a third is refused for its id. Nothing is
given for the one that needs a queue, so its factory, which has no room, is not asked. -/
theorem registered_up_to_spelling_orders :
    let queue : Component Factory := ⟨orders2, .probe { fault := some "no room" }⟩
    let format : Component Factory := ⟨invoices, .kinesis⟩
    let start : Registry Factory := { timeout := some 50 }
    let registry : Registry Factory :=
      { entries := [("invoices", format), ("orders2", queue)], timeout := some 50 }
    start.registerEach [queue, format] = .ok registry ∧
      start.registerEach [format, queue] = .ok registry ∧
      start.registerEach [queue, format, ⟨{ orders2 with id := "ORDERS2" }, .rabbit⟩] =
        .error (.duplicateComponent "ORDERS2") ∧
      registry.Known queue "Orders_2" ∧ registry.Unknown "orders-3" ∧
      ∀ {σ : Type} (outside : Outside σ) now (world : σ),
        (registry.activate outside now "Orders_2" [] .none world).value.value =
          .error (.lookup (.bind (.missingRequired "orders-2" "queue"))) := by
  intro queue format start registry
  have hqueue : queue.filed = ("orders2", queue) := Prod.ext (by decide +kernel) rfl
  have hformat : format.filed = ("invoices", format) := Prod.ext (by decide +kernel) rfl
  have hbefore : "invoices" < "orders2" := by decide +kernel
  have hlist : ∀ first second : Component Factory,
      Fields.ofList [("orders2", first), ("invoices", second)] =
        [("invoices", second), ("orders2", first)] := fun _ _ ↦ by
    simp [Fields.ofList, Fields.putAll, Fields.put, hbefore]
  have hcalls : start.registerEach [queue, format] = .ok registry := by
    refine registerEach_start_eq_ok_iff.mpr ⟨by decide +kernel, ?_⟩
    rw [List.map_cons, List.map_singleton, hqueue, hformat, hlist]
  obtain ⟨hfirst, hbuilt⟩ := registered_up_to_spelling {} (some 50)
    [queue, format, ⟨{ orders2 with id := "ORDERS2" }, .rabbit⟩]
  obtain ⟨-, hanswers⟩ := registered_up_to_spelling {} (some 50) [queue, format]
  obtain ⟨-, hknown, hunknown, hrefuses, hperm⟩ := hanswers registry hcalls
  refine ⟨hcalls, hperm _ (.swap _ _ _), (hfirst _).mpr ?_, ?_, ?_, fun outside now world ↦ ?_⟩
  · have hforms : ([queue, format].map Component.form).Nodup := by decide +kernel
    exact .intro hforms List.mem_cons_self (by decide +kernel)
  · exact hknown queue List.mem_cons_self "Orders_2" (by decide +kernel)
  · refine (hunknown "orders-3").mpr (List.forall_mem_cons.mpr ⟨by decide +kernel, ?_⟩)
    exact List.forall_mem_singleton.mpr (by decide +kernel)
  · exact ((hrefuses "Orders_2" [] .none).reason outside now world _).mpr (by decide +kernel)

end Registry

end Connectors
