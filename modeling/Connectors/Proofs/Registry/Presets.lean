import Connectors.Application
import Connectors.Proofs.Registry.Spellings

/-!
# Presets of a registry

Before a registry is handed to an application, components are registered in it, and a binder and a
time limit may be preset, in any order (`Registry.Call`). Presets do not get in the way of
registering: after some calls the registry is that of the components alone, with the last binder and
the last limit that were preset (`Registry.callEach_eq`).

An application binds as its configuration says, whatever was preset. A limit of the configuration
prevails as well, but a configuration without one leaves the preset limit as it is
(`Application.build_after_calls`). So of all that was done with a registry besides registering
components, only the last limit can be left, and it is left exactly if the configuration has none.
-/

set_option autoImplicit false
set_option relaxedAutoImplicit false

namespace Connectors

namespace Registry

/-! ### Calls -/

/-- A call while a registry is built. -/
inductive Call (φ : Type) where
  /-- Registers a component. -/
  | register (component : Component φ)
  /-- Presets how components are bound. -/
  | binder (binder : Binder)
  /-- Presets how many milliseconds an endpoint may take to be made. -/
  | timeout (limit : Nat)

namespace Call

variable {φ : Type}

/-- The component that a call registers. -/
def component? : Call φ → Option (Component φ)
  | register component => some component
  | binder _ | timeout _ => none

/-- The binder that a call presets. -/
def binder? : Call φ → Option Binder
  | binder preset => some preset
  | register _ | timeout _ => none

/-- The limit that a call presets. -/
def timeout? : Call φ → Option Nat
  | timeout limit => some limit
  | register _ | binder _ => none

/-- The components that calls register, in order. -/
def components (calls : List (Call φ)) : List (Component φ) :=
  calls.filterMap component?

/-- The last binder that calls preset. -/
def lastBinder? (calls : List (Call φ)) : Option Binder :=
  (calls.filterMap binder?).getLast?

/-- The last limit that calls preset. -/
def lastTimeout? (calls : List (Call φ)) : Option Nat :=
  (calls.filterMap timeout?).getLast?

/-- What is preset last is preset by the first call if no later one presets it. -/
theorem getLast?_filterMap_cons {α : Type} (found : Call φ → Option α) (first : Call φ)
    (rest : List (Call φ)) :
    ((first :: rest).filterMap found).getLast? =
      (rest.filterMap found).getLast?.or (found first) := by
  cases hfirst : found first with
  | none => rw [List.filterMap_cons_none hfirst, Option.or_none]
  | some value =>
    rw [List.filterMap_cons_some hfirst, List.getLast?_cons]
    cases (rest.filterMap found).getLast? <;> rfl

theorem lastTimeout?_eq_none_iff {calls : List (Call φ)} :
    lastTimeout? calls = none ↔ ∀ limit, timeout limit ∉ calls := by
  rw [lastTimeout?, List.getLast?_eq_none_iff, List.filterMap_eq_nil_iff]
  constructor
  · intro hnone limit hmem
    cases hnone _ hmem
  · intro hnone call hmem
    cases call with
    | timeout limit => exact absurd hmem (hnone limit)
    | register | binder => rfl

end Call

variable {φ : Type}

/-- The registry after a call. -/
def call (registry : Registry φ) : Call φ → Except SchemaError (Registry φ)
  | .register component => registry.register component.schema component.factory
  | .binder binder => .ok { registry with binder }
  | .timeout limit => .ok { registry with timeout := some limit }

/-- The registry after some calls, up to the first that is refused. -/
def callEach (registry : Registry φ) : List (Call φ) → Except SchemaError (Registry φ)
  | [] => .ok registry
  | first :: rest => do
    let next ← registry.call first
    next.callEach rest

/-- The registry with what calls preset last. -/
def preset (calls : List (Call φ)) (registry : Registry φ) : Registry φ :=
  { registry with
    binder := (Call.lastBinder? calls).getD registry.binder
    timeout := (Call.lastTimeout? calls).or registry.timeout }

theorem preset_cons (first : Call φ) (rest : List (Call φ)) (registry : Registry φ) :
    registry.preset (first :: rest) = (registry.preset [first]).preset rest := by
  simp only [preset, Call.lastBinder?, Call.lastTimeout?, Call.getLast?_filterMap_cons,
    List.filterMap_nil, List.getLast?_nil, Option.none_or, Option.or_assoc]
  cases (rest.filterMap Call.binder?).getLast? <;> rfl

/-- A call either registers a component or presets something. -/
theorem call_eq (registry : Registry φ) (first : Call φ) : registry.call first =
    (registry.registerEach (Call.components [first])).map (preset [first]) := by
  cases first with
  | register component =>
    simp only [call, Call.components, Call.component?, List.filterMap_cons, List.filterMap_nil,
      registerEach]
    cases registry.register component.schema component.factory <;> rfl
  | binder | timeout => rfl

theorem register_preset (calls : List (Call φ)) (registry : Registry φ) (schema : Schema)
    (factory : φ) :
    (registry.preset calls).register schema factory =
      (registry.register schema factory).map (preset calls) := by
  unfold register
  have hcontains : (registry.preset calls).contains schema.id = registry.contains schema.id := rfl
  rw [hcontains]
  split_ifs <;> rfl

/-- Presets do not get in the way of registering. -/
theorem registerEach_preset (calls : List (Call φ)) (registry : Registry φ)
    (components : List (Component φ)) :
    (registry.preset calls).registerEach components =
      (registry.registerEach components).map (preset calls) := by
  induction components generalizing registry with
  | nil => rfl
  | cons component rest ih =>
    rw [registerEach, register_preset, registerEach]
    cases registry.register component.schema component.factory with
    | error error => rfl
    | ok next => exact ih next

/-- After some calls a registry holds the components registered, with what was preset last. It is
refused exactly if one of the components is. -/
theorem callEach_eq (registry : Registry φ) (calls : List (Call φ)) : registry.callEach calls =
    (registry.registerEach (Call.components calls)).map (preset calls) := by
  induction calls generalizing registry with
  | nil => rfl
  | cons first rest ih =>
    -- What the first call presets commutes with registering the components of the rest.
    have hcomponents : Call.components (first :: rest) =
        Call.components [first] ++ Call.components rest := by
      rw [Call.components, ← List.singleton_append, List.filterMap_append]
      rfl
    rw [callEach, call_eq, hcomponents, registerEach_append]
    cases registry.registerEach (Call.components [first]) with
    | error error => rfl
    | ok next =>
      change (next.preset [first]).callEach rest =
        (next.registerEach (Call.components rest)).map (preset (first :: rest))
      rw [ih, registerEach_preset]
      cases next.registerEach (Call.components rest) with
      | error error => rfl
      | ok built => exact congrArg Except.ok (preset_cons first rest built).symm

/-- From the beginning calls leave the components registered, and the last limit. -/
theorem parts_of_callEach {calls : List (Call φ)} {built : Registry φ}
    (hcalls : ({} : Registry φ).callEach calls = .ok built) :
    built.entries = Fields.ofList ((Call.components calls).map Component.filed) ∧
      built.timeout = Call.lastTimeout? calls := by
  rw [callEach_eq] at hcalls
  cases hregister : ({} : Registry φ).registerEach (Call.components calls) with
  | error error =>
    rw [hregister] at hcalls
    cases hcalls
  | ok registered =>
    rw [hregister] at hcalls
    obtain rfl := Except.ok.inj hcalls
    obtain ⟨-, rfl⟩ := registerEach_start_eq_ok_iff.mp hregister
    exact ⟨rfl, Option.or_none⟩

end Registry

namespace Application

open Registry (Call)

/-- A valid configuration makes an application of any registry. -/
theorem build_of_valid {config : Config} (hvalid : config.validate = .ok ())
    (registry : Registry Factory) (setsUpLogging : Bool) (linked : List (Draft × Factory)) :
    (build config (some registry) setsUpLogging linked).value =
      .ok ⟨config, configured config registry⟩ := by
  unfold build
  rw [hvalid]

/-- Registries that differ in their presets alone serve a configuration alike exactly if it has a
limit or they have the same one. -/
theorem configured_eq_iff {config : Config} {built other : Registry Factory}
    (hentries : other.entries = built.entries) : configured config other = configured config built ↔
      config.binding.activationTimeout.isSome = true ∨ other.timeout = built.timeout := by
  simp only [configured, Registry.mk.injEq, hentries, true_and]
  cases config.binding.activationTimeout <;> simp

/-- The application that a valid configuration makes of a registry, after any calls on it, has the
components that were registered. It binds as the configuration says and waits as long as that says,
or if it does not say, as long as was preset last. So it waits as the configuration says exactly if
that names a limit or none was preset. Whatever else was called, the same components make the same
application, unless the configuration names no limit and other limits were preset last. -/
theorem build_after_calls {calls : List (Call Factory)} {built : Registry Factory}
    (hcalls : ({} : Registry Factory).callEach calls = .ok built) {config : Config}
    (hvalid : config.validate = .ok ()) (setsUpLogging : Bool) (linked : List (Draft × Factory)) :
    let made (registry : Registry Factory) :=
      (build config (some registry) setsUpLogging linked).value
    let limit := config.binding.activationTimeout
    (∃ application, made built = .ok application ∧ application.config = config ∧
      application.registry.entries = Fields.ofList ((Call.components calls).map Component.filed) ∧
      application.registry.binder = ⟨config.binding.unknownKeys, config.binding.autowire⟩ ∧
      application.registry.timeout = limit.or (Call.lastTimeout? calls) ∧
      (application.registry.timeout = limit ↔
        limit.isSome = true ∨ ∀ preset, .timeout preset ∉ calls)) ∧
    ∀ others other, ({} : Registry Factory).callEach others = .ok other →
      Call.components others = Call.components calls →
      (made other = made built ↔
        limit.isSome = true ∨ Call.lastTimeout? others = Call.lastTimeout? calls) := by
  intro made limit
  have hmade : ∀ registry, made registry = .ok ⟨config, configured config registry⟩ :=
    fun registry ↦ build_of_valid hvalid registry setsUpLogging linked
  obtain ⟨hentries, htimeout⟩ := Registry.parts_of_callEach hcalls
  constructor
  · refine ⟨⟨config, configured config built⟩, hmade built, rfl, hentries, rfl,
      congrArg limit.or htimeout, ?_⟩
    rw [← Call.lastTimeout?_eq_none_iff, ← htimeout]
    change limit.or built.timeout = limit ↔ _
    cases limit <;> simp
  · intro others other hothers hcomponents
    obtain ⟨hentries', htimeout'⟩ := Registry.parts_of_callEach hothers
    rw [hmade, hmade, Except.ok.injEq, Application.mk.injEq, and_iff_right rfl, ← htimeout,
      ← htimeout']
    exact configured_eq_iff (by rw [hentries', hentries, hcomponents])

/-- A strict binder and two limits are preset around a component that takes its time. The
configuration binds leniently and names a limit of its own, so the application is that of the
component alone. -/
theorem build_after_calls_slow :
    let slow : Component Factory := ⟨{ id := "slow", indexed := rfl }, .probe { delay := 100 }⟩
    let calls : List (Call Factory) :=
      [.timeout 80, .register slow, .binder { unknownKeys := .strict, autowire := false },
        .timeout 50]
    let built : Registry Factory :=
      { entries := [("slow", slow)]
        binder := { unknownKeys := .strict, autowire := false }
        timeout := some 50 }
    let config : Config :=
      { binding := { activationTimeout := some 2500 }, components := [("slow", .table [])] }
    ({} : Registry Factory).callEach calls = .ok built ∧
      ({} : Registry Factory).callEach [.register slow] = .ok { entries := [("slow", slow)] } ∧
      config.validate = .ok () ∧
      (∃ application, (build config (some built) false []).value = .ok application ∧
        application.registry.binder = {} ∧ application.registry.timeout = some 2500) ∧
      (build config (some { entries := [("slow", slow)] }) false []).value =
        (build config (some built) false []).value := by
  intro slow calls built config
  have hform : Key.normal "slow" = "slow" := by decide +kernel
  have hcalls : ({} : Registry Factory).callEach calls = .ok built := by
    have hfiled : ({} : Registry Factory).callEach calls =
        .ok { built with entries := [(Key.normal "slow", slow)] } := rfl
    rwa [hform] at hfiled
  have halone :
      ({} : Registry Factory).callEach [.register slow] = .ok { entries := [("slow", slow)] } := by
    have hfiled : ({} : Registry Factory).callEach [.register slow] =
        .ok { entries := [(Key.normal "slow", slow)] } := rfl
    rwa [hform] at hfiled
  have hvalid : config.validate = .ok () := by decide +kernel
  obtain ⟨⟨application, hmade, -, -, hbinder, htimeout, -⟩, halike⟩ :=
    build_after_calls hcalls hvalid false []
  exact ⟨hcalls, halone, hvalid, ⟨application, hmade, hbinder, htimeout⟩,
    (halike _ _ halone rfl).mpr (.inl rfl)⟩

/-- A limit that was preset is left if the configuration names none: the application waits for 50
milliseconds only, although nothing in its configuration says so. -/
theorem preset_limit_left :
    let slow : Component Factory := ⟨{ id := "slow", indexed := rfl }, .probe { delay := 100 }⟩
    let built : Registry Factory := { entries := [("slow", slow)], timeout := some 50 }
    let config : Config := { components := [("slow", .table [])] }
    let outside : Outside Unit :=
      ⟨fun _ _ ↦ (.ok [], ()), fun _ _ ↦ (.ok (), ()), fun _ _ ↦ (.ok (), ())⟩
    ({} : Registry Factory).callEach [.register slow, .timeout 50] = .ok built ∧
      config.validate = .ok () ∧ config.binding.activationTimeout = none ∧
      ∃ application, (build config (some built) false []).value = .ok application ∧
        application.registry.timeout ≠ config.binding.activationTimeout ∧
        (application.registry.activate outside 0 "slow" [] .none ()).value.value =
          .error (.factory "slow" (.timeout 50)) := by
  intro slow built config outside
  have hform : Key.normal "slow" = "slow" := by decide +kernel
  have hcalls : ({} : Registry Factory).callEach [.register slow, .timeout 50] = .ok built := by
    have hfiled : ({} : Registry Factory).callEach [.register slow, .timeout 50] =
        .ok { built with entries := [(Key.normal "slow", slow)] } := rfl
    rwa [hform] at hfiled
  have hvalid : config.validate = .ok () := by decide +kernel
  refine ⟨hcalls, hvalid, rfl, _, build_of_valid hvalid built false [], nofun, ?_⟩
  decide +kernel

end Application

end Connectors
