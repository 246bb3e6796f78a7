import Connectors.Proofs.Binding.Values
import Connectors.Proofs.Options.RoundTrip

/-!
# Binding what a configuration writes

A bound configuration writes its values back: scalars as text by the declared names of their options
(`Bound.properties`), and objects as they are. Put together these are raw values again
(`Bound.written`), and binding them gives the configuration back (`bind_written`), whatever the
order of the raw values and whatever the policy for keys that lead nowhere.

Three things meet here. A value that was read from a text reads the same from its own text
(`OptionKind.parse_text`). The declared names of a schema differ in their normal forms, so each of
them leads to its own option only (`filter_presentAmong`). And an option that got nothing the first
time gets nothing again, since its default and the objects around it are the same
(`Resolves.again`).
-/

set_option autoImplicit false
set_option relaxedAutoImplicit false

namespace Connectors

/-- A value as it is given for an option: an object as it is, everything else by its text. -/
def OptionValue.raw : OptionValue → RawValue
  | .object reference => .object reference
  | value => .text (value.text?.getD "")

/-- A value that an option got is what the option makes of the value written back. -/
theorem Binder.Originates.coerces {component : String} {resolver : Resolver} {spec : OptionSpec}
    {value : OptionValue} (horigin : Originates spec value) :
    Coerces component resolver spec value.raw (.ok value) := by
  rcases horigin with ⟨text, hparse⟩ | ⟨reference, rfl, hkind⟩
  · obtain ⟨written, htext, hback⟩ := OptionKind.parse_text hparse
    have hraw : value.raw = .text written := by
      cases value <;> simp_all [OptionValue.raw, OptionValue.text?]
    rw [hraw]
    exact .text (OptionKind.ne_object_of_parse hparse) (.value hback)
  · exact .object (.offered hkind)

namespace Bound

/-- The objects of a configuration, by the declared names of their options. -/
def objects (bound : Bound) : List (String × ObjectRef) :=
  bound.present.filterMap fun (spec, value) ↦
    match value with
    | .object reference => some (spec.name, reference)
    | _ => none

/-- The values of a configuration as raw values: its properties and its objects. -/
def written (bound : Bound) : RawValues :=
  (bound.properties.map fun (name, text) ↦ (name, .text text)) ++
    bound.objects.map fun (name, reference) ↦ (name, .object reference)

/-! ### The options that have a value -/

/-- The options that have a value, from options with their places. -/
def presentAmong (options : List OptionSpec) (values : List (Option OptionValue)) :
    List (OptionSpec × OptionValue) :=
  (options.zip values).filterMap fun (spec, value) ↦ value.map fun value ↦ (spec, value)

theorem present_eq (bound : Bound) :
    bound.present = presentAmong bound.schema.options bound.values := rfl

theorem presentAmong_cons (spec : OptionSpec) (options : List OptionSpec)
    (value : Option OptionValue) (values : List (Option OptionValue)) :
    presentAmong (spec :: options) (value :: values) =
      (value.toList.map fun value ↦ (spec, value)) ++ presentAmong options values := by
  cases value <;> simp [presentAmong]

theorem presentAmong_sublist (options : List OptionSpec) (values : List (Option OptionValue)) :
    ((presentAmong options values).map (·.1)).Sublist options := by
  induction options generalizing values with
  | nil => simp [presentAmong]
  | cons spec options ih =>
    cases values with
    | nil => simp [presentAmong]
    | cons value values =>
      rw [presentAmong_cons]
      cases value with
      | none => simpa using (ih values).cons spec
      | some value => simpa using (ih values).cons_cons spec

/-- Where the names of options differ, a name leads to the value of its own option only. -/
theorem filter_presentAmong {options : List OptionSpec} {values : List (Option OptionValue)}
    (hforms : (Binder.forms options).Nodup) {spec : OptionSpec} {value : Option OptionValue}
    (hmem : (spec, value) ∈ options.zip values) :
    ((presentAmong options values).filter fun pair ↦ Key.agree pair.1.name spec.name) =
      value.toList.map fun value ↦ (spec, value) := by
  induction options generalizing values with
  | nil => simp at hmem
  | cons first options ih =>
    cases values with
    | nil => simp at hmem
    | cons held values =>
      obtain ⟨hnew, hdistinct⟩ := List.nodup_cons.mp hforms
      rw [presentAmong_cons, List.filter_append]
      rcases List.mem_cons.mp hmem with heq | hrest
      · obtain ⟨rfl, rfl⟩ := Prod.mk.inj heq
        have hothers : ((presentAmong options values).filter fun pair ↦
            Key.agree pair.1.name spec.name) = [] := by
          refine List.filter_eq_nil_iff.mpr fun pair hpair hagree ↦ hnew ?_
          have hoption := (presentAmong_sublist options values).mem (List.mem_map_of_mem hpair)
          exact List.mem_map.mpr ⟨pair.1, hoption, Key.agree_iff.mp hagree⟩
        rw [hothers, List.append_nil]
        cases value <;> simp [Key.agree]
      · have hspec : spec ∈ options := (List.of_mem_zip hrest).1
        have hne : Key.agree first.name spec.name = false := by
          refine Bool.eq_false_iff.mpr fun hagree ↦ hnew ?_
          exact List.mem_map.mpr ⟨spec, hspec, (Key.agree_iff.mp hagree).symm⟩
        rw [ih hdistinct hrest]
        cases held <;> simp [hne]

/-! ### What is written -/

theorem nodup_present_names (bound : Bound) : (bound.present.map (·.1.name)).Nodup := by
  have hoptions : (bound.schema.options.map (·.name)).Nodup := by
    refine List.Nodup.of_map Key.normal ?_
    simpa [Function.comp_def] using bound.schema.nodup_forms
  have hsublist := (presentAmong_sublist bound.schema.options bound.values).map (·.name)
  rw [← present_eq, List.map_map] at hsublist
  exact hsublist.nodup hoptions

/-- The names of the values that have a text in some rendering are among the names of all values. -/
theorem text_names_sublist (rendering : OptionSpec → OptionValue → Option String)
    (pairs : List (OptionSpec × OptionValue)) :
    ((pairs.filterMap fun (spec, value) ↦
      (rendering spec value).map fun text ↦ (spec.name, text)).map (·.1)).Sublist
        (pairs.map (·.1.name)) := by
  induction pairs with
  | nil => simp
  | cons pair pairs ih =>
    obtain ⟨spec, value⟩ := pair
    cases htext : rendering spec value with
    | none => simpa [htext] using ih.cons spec.name
    | some text => simpa [htext] using ih.cons_cons spec.name

/-- Each value is written once, under the declared name of its option. -/
theorem written_perm (bound : Bound) :
    bound.written.Perm (bound.present.map fun (spec, value) ↦ (spec.name, value.raw)) := by
  have hproperties : bound.properties.Perm (bound.present.filterMap fun (spec, value) ↦
      value.text?.map fun text ↦ (spec.name, text)) :=
    Fields.ofList_perm ((text_names_sublist (fun _ value ↦ value.text?) bound.present).nodup
      bound.nodup_present_names)
  refine ((hproperties.map _).append_right _).trans ?_
  unfold objects
  generalize bound.present = pairs
  induction pairs with
  | nil => simp
  | cons pair pairs ih =>
    obtain ⟨spec, value⟩ := pair
    cases value with
    | object reference =>
      refine List.perm_middle.trans ?_
      simpa [OptionValue.raw, OptionValue.text?] using ih
    | _ => simpa [OptionValue.raw, OptionValue.text?] using ih

end Bound

namespace Binder

variable {binder : Binder} {schema : Schema} {resolver : Resolver}

/-- What is written for a schema leads to its options, to each just its own value. -/
theorem entriesOf_written {bound : Bound} {again : RawValues} (hagain : again.Perm bound.written)
    {spec : OptionSpec} {value : Option OptionValue}
    (hmem : (spec, value) ∈ bound.schema.options.zip bound.values) :
    (entriesOf again spec).Perm (value.toList.map fun value ↦ (spec.name, value.raw)) := by
  have hfilter := Bound.filter_presentAmong bound.schema.nodup_forms hmem
  refine ((hagain.trans bound.written_perm).filter _).trans (List.Perm.of_eq ?_)
  rw [List.filter_map, Bound.present_eq]
  refine (congrArg (List.map _) hfilter).trans ?_
  simp [Function.comp_def]

theorem not_leadsNowhere_written {bound : Bound} {key : String}
    (hkey : key ∈ bound.written.map (·.1)) : ¬ LeadsNowhere bound.schema.options key := by
  intro hnowhere
  have hpresent := (bound.written_perm.map (·.1)).mem_iff.mp hkey
  rw [List.map_map, Bound.present_eq] at hpresent
  obtain ⟨⟨spec, value⟩, hpair, rfl⟩ := List.mem_map.mp hpresent
  have hspec := (Bound.presentAmong_sublist bound.schema.options bound.values).mem
    (List.mem_map_of_mem hpair)
  exact hnowhere spec hspec rfl

/-- An option gets from what is written the value that it had. -/
theorem Resolves.again (hresolver : resolver.Honest) {component : String} {spec : OptionSpec}
    {entries others : RawValues} {value : Option OptionValue}
    (hresolves : binder.Resolves component resolver spec entries (.ok value))
    (hothers : others.Perm (value.toList.map fun value ↦ (spec.name, value.raw))) :
    binder.Resolves component resolver spec others (.ok value) := by
  cases value with
  | none =>
    obtain rfl : others = [] := List.perm_nil.mp hothers
    exact hresolves.of_none.1 ▸ hresolves
  | some value =>
    have hone : others = [(spec.name, value.raw)] := List.perm_singleton.mp hothers
    exact .supplied hone (hresolves.origin hresolver).coerces

/-- Binding what a bound configuration writes gives the configuration back: each option has the
value that it had or again none, and what is written is the same once more. The second binding may
be strict or lenient, and takes the raw values in any order. -/
theorem bind_written (hresolver : resolver = .none ∨ ∃ registry : BeanRegistry,
      resolver = registry.resolver)
    {raw : RawValues} {bound : Bound} (hbind : (binder.bind schema raw resolver).value = .ok bound)
    (policy : UnknownKeyPolicy) {again : RawValues} (hagain : again.Perm bound.written) :
    ∃ rebound, ((binder.under policy).bind schema again resolver).value = .ok rebound ∧
      rebound.schema = bound.schema ∧ rebound.values = bound.values ∧
      rebound.properties = bound.properties := by
  have hhonest : resolver.Honest := by
    rcases hresolver with rfl | ⟨registry, rfl⟩
    · exact Resolver.honest_none
    · exact registry.honest_resolver
  cases (bind_value_eq_iff schema raw _).mp hbind with
  | @bound values hvalues haccepted =>
    refine ⟨⟨schema, values⟩, ?_, rfl, rfl, rfl⟩
    refine (bind_value_eq_iff schema again _).mpr (.bound ?_ (.inr fun key hkey ↦ ?_))
    · obtain ⟨hlength, hpairs⟩ := List.forall₂_iff_zip.mp hvalues
      refine List.forall₂_iff_zip.mpr ⟨hlength, fun {spec value} hmem ↦ resolves_under.mpr ?_⟩
      exact (hpairs hmem).again hhonest (entriesOf_written hagain hmem)
    · exact not_leadsNowhere_written ((hagain.map (·.1)).mem_iff.mp hkey)

/-- A number given with a sign and zeros, beside a client that is found by its type. -/
theorem bind_written_orders :
    let client := ObjectRef.ofType 1 "kinesis::Client"
    let resolver := (BeanRegistry.empty.insert "main" client).resolver
    let raw : RawValues := [("MAX-RESULTS", .text "+007"), ("stream_name", .text "a, b")]
    let written : RawValues := [("maxResults", .text "7"), ("streamName", .text "a, b"),
      ("client", .object client)]
    let binder : Binder := {}
    let bound : Bound := ⟨orders, [some (.string "a, b"), some (.int 7), some (.object client)]⟩
    (binder.bind orders raw resolver).value = .ok bound ∧ bound.written = written ∧
      ∃ rebound, ((binder.under .lenient).bind orders written resolver).value = .ok rebound ∧
        rebound.schema = orders ∧ rebound.values = bound.values ∧
        rebound.properties = bound.properties := by
  intro client resolver raw written binder bound
  have hbind : (binder.bind orders raw resolver).value = .ok bound := by decide +kernel
  have hwritten : bound.written = written := by decide +kernel
  refine ⟨hbind, hwritten, ?_⟩
  exact bind_written (.inr ⟨_, rfl⟩) hbind .lenient (List.Perm.of_eq hwritten.symm)

end Binder

end Connectors
