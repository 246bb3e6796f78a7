import Connectors.Proofs.Binding.Single

/-!
# Binding nothing

Where nothing is given to a component, each option has its default, the only object of its type, or
no value (`Binder.Falls`), and an option that needs a value and has none of these is missing
(`Binder.Lacks`). The defaults of a schema were read when it was built, by the rules by which they
are read here, so none of them can be refused now (`Binder.resolved_nothing_eq_error_iff`).

Hence a binding of nothing is refused for the first option that lacks a value and for no other
reason, and gives a configuration exactly if there is no such option (`Binder.bind_nothing`).
-/

set_option autoImplicit false
set_option relaxedAutoImplicit false

namespace Connectors.Binder

variable {binder : Binder} {schema : Schema} {component : String} {resolver : Resolver}
  {spec : OptionSpec}

/-- An option that needs a value and gets none of its own accord. -/
structure Lacks (binder : Binder) (resolver : Resolver) (spec : OptionSpec) : Prop where
  /-- A configuration without a value is refused. -/
  required : spec.required = true
  /-- There is no default. -/
  fallback : spec.fallback = none
  /-- No object is the only one of the type. -/
  autowires : ∀ reference, ¬ binder.Autowires resolver spec reference

/-- What an option holds if nothing is given for it. -/
inductive Falls (binder : Binder) (resolver : Resolver) (spec : OptionSpec) :
    Option OptionValue → Prop
  | fallback {text : String} {value : OptionValue} (hfallback : spec.fallback = some text)
      (hparse : spec.kind.parse text = .ok value) : Falls binder resolver spec (some value)
  | autowired {reference : ObjectRef} (hfallback : spec.fallback = none)
      (hautowires : binder.Autowires resolver spec reference) :
      Falls binder resolver spec (some (.object reference))
  | unset (hfallback : spec.fallback = none)
      (hautowires : ∀ reference, ¬ binder.Autowires resolver spec reference)
      (hrequired : spec.required = false) : Falls binder resolver spec none

/-! ### One option -/

/-- A default that reads as a value is not refused. -/
theorem ReadsText.of_parse {text : String} {value : OptionValue}
    {outcome : Except BindError OptionValue} (hparse : spec.kind.parse text = .ok value)
    (hread : ReadsText component spec text outcome) : outcome = .ok value := by
  rw [readsText_iff.mp hread, ← readsText_iff.mp (.value hparse)]

/-- An option of a schema for which nothing is given is refused exactly if it lacks a value: its
default was read when the schema was built. -/
theorem resolved_nothing_eq_error_iff (hspec : spec ∈ schema.options) {error : BindError} :
    binder.resolved component resolver [] spec = .error error ↔
      binder.Lacks resolver spec ∧ error = .missingRequired component spec.name := by
  rw [resolved, eq_comm, ← resolves_iff]
  constructor
  · intro hresolves
    generalize houtcome : Except.error error = outcome at hresolves
    cases hresolves with
    | @fallback text outcome _ hfallback hread =>
      obtain ⟨value, hparse⟩ := schema.parse_fallback hspec hfallback
      cases hread.of_parse hparse ▸ houtcome
    | autowired => cases houtcome
    | missing _ hfallback hautowires hrequired =>
      exact ⟨⟨hrequired, hfallback, hautowires⟩, Except.error.inj houtcome⟩
    | unset => cases houtcome
    | supplied hone => cases hone
    | conflicting hseveral => simp [entriesOf] at hseveral
  · rintro ⟨hlacks, rfl⟩
    exact .missing rfl hlacks.fallback hlacks.autowires hlacks.required

/-- What becomes of an option of a schema for which nothing is given. -/
theorem resolved_nothing_eq_ok_iff (hspec : spec ∈ schema.options) {value : Option OptionValue} :
    binder.resolved component resolver [] spec = .ok value ↔ binder.Falls resolver spec value := by
  rw [resolved, eq_comm, ← resolves_iff]
  constructor
  · intro hresolves
    generalize houtcome : Except.ok value = outcome at hresolves
    cases hresolves with
    | @fallback text outcome _ hfallback hread =>
      obtain ⟨value, hparse⟩ := schema.parse_fallback hspec hfallback
      rw [hread.of_parse hparse] at houtcome
      exact Except.ok.inj houtcome ▸ .fallback hfallback hparse
    | autowired _ hfallback hautowires =>
      exact Except.ok.inj houtcome ▸ .autowired hfallback hautowires
    | missing => cases houtcome
    | unset _ hfallback hautowires hrequired =>
      exact Except.ok.inj houtcome ▸ .unset hfallback hautowires hrequired
    | supplied hone => cases hone
    | conflicting hseveral => simp [entriesOf] at hseveral
  · intro hfalls
    cases hfalls with
    | fallback hfallback hparse => exact .fallback rfl hfallback (.value hparse)
    | autowired hfallback hautowires => exact .autowired rfl hfallback hautowires
    | unset hfallback hautowires hrequired => exact .unset rfl hfallback hautowires hrequired

theorem not_lacks_iff (hspec : spec ∈ schema.options) : ¬ binder.Lacks resolver spec ↔
    ∃ value, binder.resolved schema.id resolver [] spec = .ok value := by
  cases hvalue : binder.resolved schema.id resolver [] spec with
  | error error => simpa using ((resolved_nothing_eq_error_iff hspec).mp hvalue).1
  | ok value =>
    refine iff_of_true (fun hlacks ↦ ?_) ⟨value, rfl⟩
    cases hvalue.symm.trans ((resolved_nothing_eq_error_iff hspec).mpr ⟨hlacks, rfl⟩)

/-! ### All options -/

/-- Where nothing is given no key leads nowhere, and the policy for such keys does not matter. -/
theorem bind_nil_value (schema : Schema) : (binder.bind schema [] resolver).value =
    (schema.options.mapM (binder.resolved schema.id resolver [])).map fun values ↦
      ⟨schema, values⟩ := by
  have hstray : strayKeys schema [] = [] := by simp [strayKeys]
  rw [bind_value, hstray]
  cases binder.unknownKeys <;> cases schema.options.mapM (binder.resolved schema.id resolver []) <;>
    rfl

theorem bind_nil_events (schema : Schema) : (binder.bind schema [] resolver).events = [] := by
  rw [bind_events]
  induction schema.options with
  | nil => rfl
  | cons spec rest ih =>
    rw [reports, ih, entriesOf, List.filter_nil, resolve]
    cases binder.absent schema.id resolver spec <;> rfl

/-- The error of a binding of nothing is that of the first option that lacks a value. -/
theorem bind_nil_eq_error_iff {error : BindError} :
    (binder.bind schema [] resolver).value = .error error ↔
      ∃ before spec after, schema.options = before ++ spec :: after ∧
        (∀ earlier ∈ before, ¬ binder.Lacks resolver earlier) ∧ binder.Lacks resolver spec ∧
        error = .missingRequired schema.id spec.name := by
  have hmap : (binder.bind schema [] resolver).value = .error error ↔
      schema.options.mapM (binder.resolved schema.id resolver []) = .error error := by
    rw [bind_nil_value]
    cases schema.options.mapM (binder.resolved schema.id resolver []) <;> simp [Except.map]
  rw [hmap, Traversal.mapM_eq_error_iff]
  refine exists_congr fun before ↦ exists_congr fun spec ↦ exists_congr fun after ↦
    and_congr_right fun hoptions ↦ ?_
  have hspec : spec ∈ schema.options := hoptions ▸ List.mem_append_right _ List.mem_cons_self
  have hbefore : ∀ earlier ∈ before, earlier ∈ schema.options := fun earlier hearlier ↦
    hoptions ▸ List.mem_append_left _ hearlier
  rw [resolved_nothing_eq_error_iff hspec]
  exact and_congr_left' (forall₂_congr fun earlier hearlier ↦
    (not_lacks_iff (hbefore earlier hearlier)).symm)

/-- A configuration that is bound from nothing holds what each option falls back to. -/
theorem bind_nil_eq_ok_iff {bound : Bound} : (binder.bind schema [] resolver).value = .ok bound ↔
    bound.schema = schema ∧ List.Forall₂ (binder.Falls resolver) schema.options bound.values := by
  have hfalls : ∀ values, List.Forall₂ (binder.Falls resolver) schema.options values ↔
      schema.options.mapM (binder.resolved schema.id resolver []) = .ok values := by
    intro values
    rw [Traversal.mapM_eq_ok_iff]
    exact Traversal.forall₂_congr_of_mem fun spec hspec value ↦
      (resolved_nothing_eq_ok_iff hspec).symm
  rw [hfalls, bind_nil_value]
  cases schema.options.mapM (binder.resolved schema.id resolver []) with
  | error error => simp [Except.map]
  | ok values =>
    obtain ⟨held, places⟩ := bound
    simp [Except.map, eq_comm]

/-- A binding of nothing is refused for the first option that lacks a value and for no other reason,
so it gives a configuration exactly if no option lacks one. Each option then holds its default, the
only object of its type, or nothing. Nothing is reported. -/
theorem bind_nothing (binder : Binder) (schema : Schema) (resolver : Resolver) :
    (∀ error, (binder.bind schema [] resolver).value = .error error ↔
      ∃ before spec after, schema.options = before ++ spec :: after ∧
        (∀ earlier ∈ before, ¬ binder.Lacks resolver earlier) ∧ binder.Lacks resolver spec ∧
        error = .missingRequired schema.id spec.name) ∧
    ((∃ bound, (binder.bind schema [] resolver).value = .ok bound) ↔
      ∀ spec ∈ schema.options, ¬ binder.Lacks resolver spec) ∧
    (∀ bound, (binder.bind schema [] resolver).value = .ok bound ↔
      bound.schema = schema ∧ List.Forall₂ (binder.Falls resolver) schema.options bound.values) ∧
    (binder.bind schema [] resolver).events = [] := by
  refine ⟨fun _ ↦ bind_nil_eq_error_iff, ⟨?_, fun hnone ↦ ?_⟩, fun _ ↦ bind_nil_eq_ok_iff,
    bind_nil_events schema⟩
  · rintro ⟨bound, hbind⟩ spec hspec
    exact (not_lacks_iff hspec).mpr (exists_resolved_of_bind_eq_ok hspec hbind)
  · cases hbind : (binder.bind schema [] resolver).value with
    | ok bound => exact ⟨bound, rfl⟩
    | error error =>
      obtain ⟨before, spec, after, hoptions, -, hlacks, -⟩ := bind_nil_eq_error_iff.mp hbind
      exact absurd hlacks (hnone spec (hoptions ▸ List.mem_append_right _ List.mem_cons_self))

/-- A component with a default and an object that it needs. -/
def shipments : Schema where
  id := "shipments"
  options := [
    { name := "carrier", kind := .enum ["POST", "COURIER"], fallback := some "POST",
      required := true },
    { name := "client", kind := .object "Client", required := true, autowired := true }]
  indexed := by decide +kernel

/-- The only client is taken, and neither of two is. -/
theorem bind_nothing_shipments :
    let client : ObjectRef := ⟨1, "Client", "HttpClient"⟩
    let one : BeanRegistry := ⟨[("main", client)]⟩
    let two : BeanRegistry := ⟨[("main", client), ("spare", ⟨2, "Client", "HttpClient"⟩)]⟩
    let binder : Binder := {}
    (binder.bind shipments [] one.resolver).value =
        .ok ⟨shipments, [some (.enum "POST"), some (.object client)]⟩ ∧
      (binder.bind shipments [] two.resolver).value =
        .error (.missingRequired "shipments" "client") := by
  intro client one two binder
  constructor
  · refine ((bind_nothing binder shipments one.resolver).2.2.1 _).mpr ⟨rfl, ?_⟩
    refine .cons (.fallback rfl (by decide +kernel)) (.cons (.autowired rfl ?_) .nil)
    exact ⟨rfl, rfl, "Client", rfl, by decide +kernel⟩
  · refine ((bind_nothing binder shipments two.resolver).1 _).mpr
      ⟨[_], _, [], rfl, ?_, ⟨rfl, rfl, ?_⟩, rfl⟩
    · exact List.forall_mem_singleton.mpr fun hlacks ↦ nomatch hlacks.fallback
    · exact not_autowires_iff.mpr (by decide +kernel)

end Connectors.Binder
