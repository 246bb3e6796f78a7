import Connectors.Activation
import Connectors.Proofs.Sessions
import Mathlib.Data.List.Basic

/-!
# What a registry holds

A registry is built from the empty one by registering components and by settling how they are bound
and how long their endpoints may take (`Registry.Built`). So whatever an id leads to is a component
whose declared id has the same normal form (`Registry.Built.normal_id`).

An activation asks the registry for the component first. If there is one, an endpoint that is made
is one of that component, and a failure is not that the component is missing
(`Registry.activate_cases`).
-/

set_option autoImplicit false
set_option relaxedAutoImplicit false

namespace Connectors

namespace Registry

section Built

variable {φ : Type} {registry : Registry φ} {id : String} {component : Component φ}

/-- The registries that can be built. -/
inductive Built : Registry φ → Prop
  /-- The one without components. -/
  | empty : Built {}
  /-- One with a component more. -/
  | register {registry next : Registry φ} {schema : Schema} {factory : φ} (hbuilt : Built registry)
      (hregister : registry.register schema factory = .ok next) : Built next
  /-- One that binds in another way, or waits for another time. -/
  | settle {registry : Registry φ} (hbuilt : Built registry) (binder : Binder)
      (timeout : Option Nat) : Built { registry with binder, timeout }

/-- An id leads to a component whose declared id is a spelling of it. -/
theorem Built.normal_id (hbuilt : registry.Built) (hentry : registry.entry? id = some component) :
    Key.normal component.schema.id = Key.normal id := by
  induction hbuilt with
  | empty => simp [ entry?, Fields.get?] at hentry
  | @register registry next schema factory _ hregister ih =>
    unfold Registry.register at hregister
    split_ifs at hregister
    obtain rfl := Except.ok.inj hregister
    by_cases hid : Key.normal id = Key.normal schema.id
    · rw [ entry?, hid, Fields.get?_put_self] at hentry
      obtain rfl := Option.some.inj hentry
      exact hid.symm
    · rw [ entry?, Fields.get?_put_of_ne _ _ hid] at hentry
      exact ih hentry
  | settle _ _ _ ih => exact ih hentry

theorem component_eq_ok_iff : registry.component id = .ok component ↔
    registry.entry? id = some component := by
  unfold Registry.component
  cases registry.entry? id <;> simp

/-- A registry of one component is asked for it in any spelling of its id. -/
theorem component_singleton {form : String} (hid : Key.normal id = form) (component : Component φ)
    (binder : Binder) (timeout : Option Nat) :
    ({ entries := [(form, component)], binder, timeout } : Registry φ).component id =
      .ok component := by
  rw [component_eq_ok_iff, entry?, hid]
  exact if_pos rfl

theorem contains_iff : registry.contains id = true ↔
    ∃ component, registry.component id = .ok component := by
  rw [contains, Option.isSome_iff_exists]
  simp only [component_eq_ok_iff]

end Built

/-! ### Activation -/

/-- An activation fails because there is no component, or it is one of the component that its id
leads to. -/
theorem activate_cases {σ : Type} (registry : Registry Factory) (outside : Outside σ)
    (now : Calendar.Instant) (id : String) (raw : RawValues) (resolver : Resolver) (world : σ) :
    let outcome := (registry.activate outside now id raw resolver world).value.value
    registry.contains id = false ∧ (∃ error, outcome = .error error) ∨
      ∃ component, registry.component id = .ok component ∧
        ((∃ activated, outcome = .ok activated ∧ activated.component = component.schema.id) ∨
          ∃ error, outcome = .error error ∧ ∀ reason, error ≠ .lookup (.schema reason)) := by
  intro outcome
  cases hcomponent : registry.component id with
  | error reason =>
    refine .inl ⟨?_, .lookup (.schema reason), ?_⟩
    · rw [← Bool.not_eq_true, contains_iff]
      simp [hcomponent]
    · simp only [outcome, Registry.activate, hcomponent]
      rfl
  | ok component =>
    refine .inr ⟨component, rfl, ?_⟩
    simp only [outcome, Registry.activate, hcomponent]
    rw [Session.value_bind, Session.value_ofLogged]
    cases (registry.binder.bind component.schema raw resolver).value with
    | error refusal => exact .inr ⟨_, rfl, by simp⟩
    | ok config =>
      simp only [Session.value_bind, Session.value_pure]
      cases (Awaited.within registry.timeout
        (component.factory.create outside now config _).value).value with
      | error fault => exact .inr ⟨_, rfl, by simp⟩
      | ok endpoint => exact .inl ⟨_, rfl, rfl⟩

end Registry

end Connectors
