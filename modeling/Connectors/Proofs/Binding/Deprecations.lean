import Connectors.Proofs.Binding.Reference

/-!
# Warnings for deprecated options

Binding takes the options of a schema in turn and stops at the first that is refused, so what it
reports is about the options that it has tried: all of them, or those up to the one refused
(`Binder.Tries`). An option is warned of if it is deprecated and given under a single key
(`Binder.Warned`), whether or not the value given is accepted. The warnings are exactly those of the
options tried, in the order declared, and each names the option as declared and the key as written
(`Binder.warnings_of_bind`).

What follows for the others is said there too: an option with a default, one that is filled by its
type, one that is left open and one with keys in conflict are in no warning, and the policy for keys
that lead nowhere does not matter.
-/

set_option autoImplicit false
set_option relaxedAutoImplicit false

namespace Connectors.Binder

variable {binder : Binder} {schema : Schema} {component : String} {resolver : Resolver}
  {raw : RawValues} {spec : OptionSpec} {tried : List OptionSpec}

/-! ### The relations -/

/-- How far binding goes through the options of a schema: to their end if none is refused, and
otherwise to the first that is. -/
inductive Tries (binder : Binder) (schema : Schema) (resolver : Resolver) (raw : RawValues) :
    List OptionSpec → Prop
  | all (hall : ∀ spec ∈ schema.options, ∃ value,
      binder.Resolves schema.id resolver spec (entriesOf raw spec) (.ok value)) :
      Tries binder schema resolver raw schema.options
  | upTo {before after : List OptionSpec} {spec : OptionSpec} {error : BindError}
      (hoptions : schema.options = before ++ spec :: after)
      (hbefore : ∀ earlier ∈ before, ∃ value,
        binder.Resolves schema.id resolver earlier (entriesOf raw earlier) (.ok value))
      (hspec : binder.Resolves schema.id resolver spec (entriesOf raw spec) (.error error)) :
      Tries binder schema resolver raw (before ++ [spec])

/-- An option is deprecated, and one key leads to it. -/
def Warned (raw : RawValues) (spec : OptionSpec) : Prop :=
  spec.deprecated = true ∧ (entriesOf raw spec).length = 1

instance (raw : RawValues) (spec : OptionSpec) : Decidable (Warned raw spec) :=
  inferInstanceAs (Decidable (_ ∧ _))

/-- A warning names the component, the option as declared and the one key that leads to it. -/
inductive WarnsOf (component : String) (raw : RawValues) (spec : OptionSpec) : Event → Prop
  | given {key : String} {value : RawValue} (honly : entriesOf raw spec = [(key, value)]) :
      WarnsOf component raw spec (.warn "Option is deprecated"
        [("component", component), ("option", spec.name), ("key", key)])

/-! ### One option -/

/-- An option that is not warned of reports nothing. -/
theorem events_of_not_warned (hspec : ¬ Warned raw spec) :
    (binder.resolve component resolver spec (entriesOf raw spec)).events = [] := by
  unfold Warned at hspec
  match hentries : entriesOf raw spec with
  | [] => rfl
  | [(key, value)] =>
    have hdeprecated : spec.deprecated = false := by simpa [hentries] using hspec
    simp [resolve, deprecation, hdeprecated]
  | _ :: _ :: _ => rfl

/-- An option that is warned of reports its warning and nothing else, whether or not it is
refused. -/
theorem events_of_warned (binder : Binder) (component : String) (resolver : Resolver)
    (hspec : Warned raw spec) : ∃ event, WarnsOf component raw spec event ∧
      (binder.resolve component resolver spec (entriesOf raw spec)).events = [event] := by
  obtain ⟨hdeprecated, hlength⟩ := hspec
  obtain ⟨⟨key, value⟩, honly⟩ := List.length_eq_one_iff.mp hlength
  refine ⟨_, .given honly, ?_⟩
  simp [honly, resolve, deprecation, hdeprecated]

/-! ### The options tried -/

/-- After options that are not refused, the next ones report as if they were the first. -/
theorem reports_append {resolution : OptionSpec → Logged (Except BindError (Option OptionValue))}
    {before : List OptionSpec} (hbefore : ∀ earlier ∈ before, ∃ value,
      (resolution earlier).value = .ok value) (rest : List OptionSpec) :
    reports resolution (before ++ rest) =
      before.flatMap (fun spec ↦ (resolution spec).events) ++ reports resolution rest := by
  induction before with
  | nil => rfl
  | cons earlier before ih =>
    obtain ⟨⟨value, hvalue⟩, hlater⟩ := List.forall_mem_cons.mp hbefore
    simp only [List.cons_append, reports, hvalue, ih hlater, List.flatMap_cons, List.append_assoc]

theorem exists_resolves_iff {entries : RawValues} :
    (∃ value, binder.Resolves component resolver spec entries (.ok value)) ↔
      ∃ value, (binder.resolve component resolver spec entries).value = .ok value := by
  simp only [resolves_iff, eq_comm]

/-- Binding reports what the options report that it has tried. -/
theorem Tries.events_eq (htries : binder.Tries schema resolver raw tried) :
    (binder.bind schema raw resolver).events = tried.flatMap fun spec ↦
      (binder.resolve schema.id resolver spec (entriesOf raw spec)).events := by
  rw [bind_events]
  cases htries with
  | all hall =>
    simpa [reports] using
      reports_append (fun spec hspec ↦ exists_resolves_iff.mp (hall spec hspec)) []
  | @upTo before after spec error hoptions hbefore hspec =>
    -- The option that is refused is the last to report, and those after it are not reached.
    rw [hoptions, reports_append fun earlier hearlier ↦
      exists_resolves_iff.mp (hbefore earlier hearlier), reports, ← resolves_iff.mp hspec]
    simp

/-- Binding goes through the options either to the end or to the first that is refused. -/
theorem exists_tries (binder : Binder) (schema : Schema) (resolver : Resolver) (raw : RawValues) :
    ∃ tried, binder.Tries schema resolver raw tried := by
  cases hall : schema.options.mapM (binder.resolved schema.id resolver raw) with
  | ok values =>
    refine ⟨_, .all fun spec hspec ↦ ?_⟩
    obtain ⟨index, hlength, rfl⟩ := List.mem_iff_getElem.mp hspec
    have hvalues := mapM_resolved_eq_ok_iff.mp hall
    exact ⟨_, hvalues.get hlength (hvalues.length_eq ▸ hlength)⟩
  | error error =>
    obtain ⟨before, spec, after, hoptions, hbefore, hspec⟩ := Traversal.mapM_eq_error_iff.mp hall
    refine ⟨_, .upTo hoptions (fun earlier hearlier ↦ ?_) (resolves_iff.mpr hspec.symm)⟩
    exact exists_resolves_iff.mpr (hbefore earlier hearlier)

/-- The options tried are options of the schema. -/
theorem Tries.sublist (htries : binder.Tries schema resolver raw tried) :
    tried.Sublist schema.options := by
  cases htries with
  | all => exact .refl _
  | upTo hoptions =>
    rw [hoptions]
    exact (List.Sublist.refl _).append (List.Sublist.cons_cons _ (List.nil_sublist _))

/-- Of some options, each that is warned of has one warning, in order. -/
theorem warnings_of_options (binder : Binder) (component : String) (resolver : Resolver)
    (raw : RawValues) (options : List OptionSpec) :
    List.Forall₂ (WarnsOf component raw) (options.filter fun spec ↦ Warned raw spec)
      (options.flatMap fun spec ↦
        (binder.resolve component resolver spec (entriesOf raw spec)).events) := by
  induction options with
  | nil => exact .nil
  | cons spec rest ih =>
    rw [List.flatMap_cons]
    by_cases hspec : Warned raw spec
    · obtain ⟨event, hevent, hevents⟩ := events_of_warned binder component resolver hspec
      rw [List.filter_cons_of_pos (by simpa using hspec), hevents]
      exact .cons hevent ih
    · rw [List.filter_cons_of_neg (by simpa using hspec), events_of_not_warned hspec]
      exact ih

/-- A warning is about an option with a single key. -/
theorem exists_of_mem_events {event : Event}
    (hevent : event ∈ (binder.bind schema raw resolver).events) :
    ∃ spec ∈ schema.options, Warned raw spec ∧ WarnsOf schema.id raw spec event := by
  obtain ⟨tried, htries⟩ := exists_tries binder schema resolver raw
  rw [htries.events_eq] at hevent
  obtain ⟨spec, hspec, hmem⟩ := List.mem_flatMap.mp hevent
  by_cases hwarned : Warned raw spec
  · obtain ⟨warning, hwarns, hevents⟩ := events_of_warned binder schema.id resolver hwarned
    rw [hevents, List.mem_singleton] at hmem
    exact ⟨spec, htries.sublist.mem hspec, hwarned, hmem ▸ hwarns⟩
  · rw [events_of_not_warned hwarned] at hmem
    exact absurd hmem List.not_mem_nil

/-- Binding warns exactly of the deprecated options that it has tried and that are given under a
single key: of each once, in the order declared, with its declared name and the key as written. So
an option to which no key leads, or more than one, is in no warning. The policy for keys that lead
nowhere does not matter. -/
theorem warnings_of_bind (binder : Binder) (schema : Schema) (resolver : Resolver)
    (raw : RawValues) :
    (∃ tried, binder.Tries schema resolver raw tried) ∧
    (∀ tried, binder.Tries schema resolver raw tried →
      List.Forall₂ (WarnsOf schema.id raw) (tried.filter fun spec ↦ Warned raw spec)
        (binder.bind schema raw resolver).events) ∧
    (∀ spec ∈ schema.options, (entriesOf raw spec).length ≠ 1 →
      ∀ event ∈ (binder.bind schema raw resolver).events, ("option", spec.name) ∉ event.details) ∧
    ∀ policy, ((binder.under policy).bind schema raw resolver).events =
      (binder.bind schema raw resolver).events := by
  refine ⟨exists_tries binder schema resolver raw, fun tried htries ↦ ?_, ?_, fun policy ↦ ?_⟩
  · rw [htries.events_eq]
    exact warnings_of_options binder schema.id resolver raw tried
  · intro spec hspec hlength event hevent hdetail
    obtain ⟨other, hother, hwarned, ⟨honly⟩⟩ := exists_of_mem_events hevent
    have hname : spec.name = other.name := by simpa [Event.warn] using hdetail
    obtain rfl : spec = other := schema.eq_of_normal_eq hspec hother (congrArg Key.normal hname)
    exact hlength hwarned.2
  · rw [bind_events, bind_events]
    rfl

/-- A component most of whose options are deprecated. -/
def relays : Schema where
  id := "relays"
  options := [{ name := "endpoint", kind := .string, deprecated := true },
    { name := "batch", kind := .int, fallback := some "1", deprecated := true },
    { name := "limit", kind := .int, deprecated := true },
    { name := "note", kind := .string, deprecated := true }]
  indexed := by decide +kernel

/-- The third option is refused. It is warned of all the same, and so is the first, but neither the
second, which has its default, nor the last, which is not tried. -/
theorem warnings_of_bind_relays :
    let raw : RawValues :=
      [("note", .text "n"), ("LIMIT", .text "many"), ("end-point", .text "old")]
    let binder : Binder := {}
    let endpoint : OptionSpec := { name := "endpoint", kind := .string, deprecated := true }
    let batch : OptionSpec :=
      { name := "batch", kind := .int, fallback := some "1", deprecated := true }
    let limit : OptionSpec := { name := "limit", kind := .int, deprecated := true }
    binder.Tries relays .none raw [endpoint, batch, limit] ∧
      List.Forall₂ (WarnsOf "relays" raw) [endpoint, limit] (binder.bind relays raw .none).events ∧
      (∀ event ∈ (binder.bind relays raw .none).events, ("option", "batch") ∉ event.details) ∧
      ((binder.under .strict).bind relays raw .none).events =
        (binder.bind relays raw .none).events := by
  intro raw binder endpoint batch limit
  have htries : binder.Tries relays .none raw [endpoint, batch, limit] := by
    have hoptions : relays.options = [endpoint, batch] ++ limit ::
        [{ name := "note", kind := .string, deprecated := true }] := rfl
    refine .upTo hoptions (List.forall_mem_cons.mpr ⟨?_, ?_⟩)
      (resolves_iff.mpr (by decide +kernel) : binder.Resolves "relays" .none limit _
        (.error (.typeCoercion "relays" "limit" "many" .int)))
    · exact ⟨some (.string "old"), resolves_iff.mpr (by decide +kernel)⟩
    · exact List.forall_mem_singleton.mpr ⟨some (.int 1), resolves_iff.mpr (by decide +kernel)⟩
  obtain ⟨-, hwarnings, hsilent, hpolicy⟩ := warnings_of_bind binder relays .none raw
  have hfilter :
      [endpoint, batch, limit].filter (fun spec ↦ Warned raw spec) = [endpoint, limit] := by
    decide +kernel
  refine ⟨htries, hfilter ▸ hwarnings _ htries, ?_, hpolicy .strict⟩
  exact hsilent batch (by simp [relays, batch]) (by decide +kernel)

end Connectors.Binder
