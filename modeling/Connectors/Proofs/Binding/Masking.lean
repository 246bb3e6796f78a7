import Connectors.Proofs.Binding.Reading
import Connectors.Proofs.Binding.Secrecy

/-!
# Properties with secrets masked

A configuration writes its values out twice, once with its secrets (`Bound.properties`) and once
with the mark for secrets in their place (`Bound.redactedProperties`). Both are renderings of the
values, under the declared names of their options (`Bound.rendered`), and each decides for itself
which values it shows. The first shows those that have a text. The second shows all secret ones as
well, with or without a text.

So the two hold the same text for every option that is not secret, and the second holds the mark for
every secret option that has a value. They have the same names, and the second is the first with the
texts of secret options masked (`Schema.masked`), exactly if no secret option holds an object
(`Binder.redacted_of_bind`). An object has no text, and where the option is secret its name stands
in the second rendering only (`Binder.secret_object_listed`).
-/

set_option autoImplicit false
set_option relaxedAutoImplicit false

namespace Connectors

namespace Bound

variable {bound : Bound} {spec : OptionSpec} {value : OptionValue} {name text : String}
  {rendering : OptionSpec → OptionValue → Option String}

/-! ### Renderings -/

/-- The texts that a rendering gives for values, by the declared names of their options. -/
def rendered (rendering : OptionSpec → OptionValue → Option String) (bound : Bound) :
    Fields String :=
  Fields.ofList (bound.present.filterMap fun (spec, value) ↦
    (rendering spec value).map fun text ↦ (spec.name, text))

theorem properties_eq (bound : Bound) :
    bound.properties = bound.rendered fun _ value ↦ value.text? := rfl

theorem redactedProperties_eq (bound : Bound) : bound.redactedProperties =
    bound.rendered fun spec value ↦ if spec.secret then some redacted else value.text? := rfl

/-- An option has a value exactly if the value is read under its declared name. -/
theorem mem_present_iff (hspec : spec ∈ bound.schema.options) :
    (spec, value) ∈ bound.present ↔ bound.get? spec.name = some value := by
  obtain ⟨index, hindex⟩ := List.mem_iff_getElem?.mp hspec
  rw [get?_of_leads ⟨hindex, rfl⟩, Option.join_eq_some_iff]
  constructor
  · intro hmem
    obtain ⟨⟨owner, slot⟩, hpair, hslot⟩ := List.mem_filterMap.mp hmem
    obtain ⟨held, rfl, howner⟩ := Option.map_eq_some_iff.mp hslot
    obtain ⟨rfl, rfl⟩ := Prod.mk.inj howner
    obtain ⟨position, hposition⟩ := List.mem_iff_getElem?.mp hpair
    obtain ⟨hoption, hvalue⟩ := List.getElem?_zip_eq_some.mp hposition
    have hleads : bound.schema.Leads owner.name index owner := ⟨hindex, rfl⟩
    rw [(hleads.unique ⟨hoption, rfl⟩).1]
    exact hvalue
  · intro hvalue
    have hpair : (spec, some value) ∈ bound.schema.options.zip bound.values :=
      List.mem_iff_getElem?.mpr ⟨index, List.getElem?_zip_eq_some.mpr ⟨hindex, hvalue⟩⟩
    exact List.mem_filterMap.mpr ⟨_, hpair, rfl⟩

theorem mem_options_of_mem_present (hmem : (spec, value) ∈ bound.present) :
    spec ∈ bound.schema.options :=
  (presentAmong_sublist bound.schema.options bound.values).mem (List.mem_map_of_mem hmem)

/-- What a rendering holds under the name of an option is what it makes of the option's value. -/
theorem get?_rendered (hspec : spec ∈ bound.schema.options) :
    Fields.get? spec.name (bound.rendered rendering) =
      (bound.get? spec.name).bind (rendering spec) := by
  have hnames := (text_names_sublist rendering bound.present).nodup bound.nodup_present_names
  refine Option.ext fun text ↦ ?_
  rw [rendered, Fields.get?_eq_some_iff (Fields.ordered_ofList _).nodup_names,
    (Fields.ofList_perm hnames).mem_iff, List.mem_filterMap, Option.bind_eq_some_iff]
  constructor
  · rintro ⟨⟨owner, value⟩, hmem, htext⟩
    obtain ⟨_, hrendering, hpair⟩ := Option.map_eq_some_iff.mp htext
    obtain ⟨hname, rfl⟩ := Prod.mk.inj hpair
    obtain rfl : owner = spec := bound.schema.eq_of_normal_eq (mem_options_of_mem_present hmem)
      hspec (congrArg Key.normal hname)
    exact ⟨value, (mem_present_iff hspec).mp hmem, hrendering⟩
  · rintro ⟨value, hvalue, hrendering⟩
    exact ⟨(spec, value), (mem_present_iff hspec).mpr hvalue, Option.map_eq_some_iff.mpr
      ⟨text, hrendering, rfl⟩⟩

/-- A rendering has no names but those of options. -/
theorem exists_option_of_mem_rendered (hname : name ∈ Fields.names (bound.rendered rendering)) :
    ∃ spec ∈ bound.schema.options, spec.name = name := by
  obtain ⟨text, htext⟩ := Fields.mem_names_iff.mp hname
  obtain ⟨⟨spec, value⟩, hmem, hpair⟩ := List.mem_filterMap.mp (Fields.mem_of_mem_ofList htext)
  obtain ⟨_, -, heq⟩ := Option.map_eq_some_iff.mp hpair
  exact ⟨spec, mem_options_of_mem_present hmem, (Prod.mk.inj heq).1⟩

/-! ### The two renderings side by side -/

theorem get?_properties (hspec : spec ∈ bound.schema.options) :
    Fields.get? spec.name bound.properties = (bound.get? spec.name).bind OptionValue.text? := by
  rw [properties_eq, get?_rendered hspec]

/-- A secret value is shown by the mark, and any other value as it is. -/
theorem get?_redactedProperties (hspec : spec ∈ bound.schema.options) :
    Fields.get? spec.name bound.redactedProperties =
      if spec.secret then (bound.get? spec.name).map fun _ ↦ redacted
      else Fields.get? spec.name bound.properties := by
  rw [redactedProperties_eq, get?_rendered hspec, get?_properties hspec]
  by_cases hsecret : spec.secret = true
  · simp only [hsecret, if_true]
    exact Option.map_eq_bind.symm
  · simp only [hsecret, if_false, Bool.false_eq_true]

/-- The values of a configuration have texts as the kinds of their options have. -/
def TextsOfKinds (bound : Bound) : Prop :=
  ∀ spec ∈ bound.schema.options, ∀ value, bound.get? spec.name = some value →
    value.text?.isSome = spec.kind.isScalar

/-- A secret option holds an object. -/
def HidesObject (bound : Bound) (spec : OptionSpec) : Prop :=
  spec.secret = true ∧ spec.kind.isScalar = false ∧ bound.contains spec.name = true

instance (bound : Bound) (spec : OptionSpec) : Decidable (bound.HidesObject spec) :=
  inferInstanceAs (Decidable (_ ∧ _))

/-- The properties have the name of each option that has a value and holds no object. -/
theorem mem_names_properties_iff (htexts : bound.TextsOfKinds)
    (hspec : spec ∈ bound.schema.options) :
    spec.name ∈ Fields.names bound.properties ↔
      bound.contains spec.name = true ∧ spec.kind.isScalar = true := by
  rw [← Fields.isSome_get?_iff, get?_properties hspec, contains]
  cases hget : bound.get? spec.name with
  | none => simp
  | some value => simp [htexts spec hspec value hget]

/-- The redacted properties have the name of each option that has a value and is secret or holds no
object. -/
theorem mem_names_redactedProperties_iff (htexts : bound.TextsOfKinds)
    (hspec : spec ∈ bound.schema.options) : spec.name ∈ Fields.names bound.redactedProperties ↔
      bound.contains spec.name = true ∧ (spec.secret = true ∨ spec.kind.isScalar = true) := by
  rw [← Fields.isSome_get?_iff, get?_redactedProperties hspec]
  by_cases hsecret : spec.secret = true
  · simp [hsecret, contains]
  · rw [if_neg hsecret, Fields.isSome_get?_iff, mem_names_properties_iff htexts hspec]
    simp [hsecret]

/-- The names that only the redacted properties have are those of secret options that hold
objects. -/
theorem mem_names_redactedProperties_iff_or (htexts : bound.TextsOfKinds) :
    name ∈ Fields.names bound.redactedProperties ↔ name ∈ Fields.names bound.properties ∨
      ∃ spec ∈ bound.schema.options, spec.name = name ∧ bound.HidesObject spec := by
  constructor
  · intro hname
    obtain ⟨spec, hspec, rfl⟩ := exists_option_of_mem_rendered (bound.redactedProperties_eq ▸ hname)
    obtain ⟨hheld, hshown⟩ := (mem_names_redactedProperties_iff htexts hspec).mp hname
    by_cases hscalar : spec.kind.isScalar = true
    · exact .inl ((mem_names_properties_iff htexts hspec).mpr ⟨hheld, hscalar⟩)
    · exact .inr ⟨spec, hspec, rfl, hshown.resolve_right hscalar, by simpa using hscalar, hheld⟩
  · rintro (hname | ⟨spec, hspec, rfl, hsecret, -, hheld⟩)
    · obtain ⟨spec, hspec, rfl⟩ := exists_option_of_mem_rendered (bound.properties_eq ▸ hname)
      obtain ⟨hheld, hscalar⟩ := (mem_names_properties_iff htexts hspec).mp hname
      exact (mem_names_redactedProperties_iff htexts hspec).mpr ⟨hheld, .inr hscalar⟩
    · exact (mem_names_redactedProperties_iff htexts hspec).mpr ⟨hheld, .inl hsecret⟩

end Bound

/-! ### Masking -/

namespace Schema

variable {schema : Schema} {spec : OptionSpec}

/-- Whether a name leads to a secret option. -/
def hides (schema : Schema) (name : String) : Bool :=
  (schema.option? name).any OptionSpec.secret

/-- Properties with the mark for secrets in place of the text of each secret option. -/
def masked (schema : Schema) (properties : Fields String) : Fields String :=
  properties.map fun field ↦ (field.1, if schema.hides field.1 then redacted else field.2)

theorem hides_name (hspec : spec ∈ schema.options) : schema.hides spec.name = spec.secret := by
  obtain ⟨index, hindex⟩ := List.mem_iff_getElem?.mp hspec
  rw [hides, option?_eq_some_iff.mpr ⟨index, hindex, rfl⟩]
  rfl

theorem names_masked (schema : Schema) (properties : Fields String) :
    Fields.names (schema.masked properties) = Fields.names properties := by
  simp [Fields.names, masked, Function.comp_def]

theorem ordered_masked {properties : Fields String} (hordered : Fields.Ordered properties) :
    Fields.Ordered (schema.masked properties) :=
  List.pairwise_map.mpr hordered

end Schema

namespace Bound

variable {bound : Bound}

/-- The properties with secrets masked are the redacted properties without the names that the
properties lack. -/
theorem masked_properties (bound : Bound) : bound.schema.masked bound.properties =
    bound.redactedProperties.filter fun field ↦ Fields.has field.1 bound.properties := by
  have hplain : Fields.Ordered bound.properties := Fields.ordered_ofList _
  have hredacted : Fields.Ordered bound.redactedProperties := Fields.ordered_ofList _
  refine (Schema.ordered_masked hplain).ext (hredacted.filter _) fun name ↦ ?_
  rw [Schema.masked,
    Fields.get?_map fun name text ↦ if bound.schema.hides name then redacted else text,
    Fields.get?_filter fun name ↦ Fields.has name bound.properties, Fields.has]
  cases hplain : Fields.get? name bound.properties with
  | none => rfl
  | some text =>
    -- The name is that of an option with a value, so the redacted properties have it as well.
    have hname : name ∈ Fields.names bound.properties :=
      Fields.isSome_get?_iff.mp (by rw [hplain]; rfl)
    obtain ⟨spec, hspec, rfl⟩ := exists_option_of_mem_rendered (bound.properties_eq ▸ hname)
    obtain ⟨value, hvalue, -⟩ :=
      Option.bind_eq_some_iff.mp ((get?_properties hspec).symm.trans hplain)
    rw [get?_redactedProperties hspec, Schema.hides_name hspec, hplain, hvalue]
    by_cases hsecret : spec.secret = true <;> simp [hsecret]

/-- Where no secret option holds an object, the redacted properties are the properties with secrets
masked. -/
theorem redactedProperties_eq_masked (htexts : bound.TextsOfKinds)
    (hnone : ∀ spec ∈ bound.schema.options, ¬ bound.HidesObject spec) :
    bound.redactedProperties = bound.schema.masked bound.properties := by
  rw [masked_properties, eq_comm, List.filter_eq_self]
  intro field hfield
  have hname : field.1 ∈ Fields.names bound.redactedProperties := List.mem_map_of_mem hfield
  rcases (mem_names_redactedProperties_iff_or htexts).mp hname with
    hplain | ⟨spec, hspec, -, hhides⟩
  · exact Fields.isSome_get?_iff.mpr hplain
  · exact absurd hhides (hnone spec hspec)

/-- A secret option that holds an object is named by the redacted properties only. -/
theorem not_hidesObject_of_names_eq (htexts : bound.TextsOfKinds)
    (hnames : Fields.names bound.redactedProperties = Fields.names bound.properties)
    {spec : OptionSpec} (hspec : spec ∈ bound.schema.options) : ¬ bound.HidesObject spec := by
  rintro ⟨hsecret, hobject, hheld⟩
  have hname : spec.name ∈ Fields.names bound.properties :=
    hnames ▸ (mem_names_redactedProperties_iff htexts hspec).mpr ⟨hheld, .inl hsecret⟩
  have hscalar := ((mem_names_properties_iff htexts hspec).mp hname).2
  exact absurd hobject (by simp [hscalar])

end Bound

namespace Binder

variable {binder : Binder} {component : String} {resolver : Resolver} {spec : OptionSpec}
  {schema : Schema} {raw : RawValues} {bound : Bound} {value : OptionValue}

theorem Originates.isSome_text? (horigin : Originates spec value) :
    value.text?.isSome = spec.kind.isScalar := by
  rcases horigin with ⟨text, hparse⟩ | ⟨reference, rfl, hkind⟩
  · obtain ⟨written, htext, -⟩ := OptionKind.parse_text hparse
    rw [htext]
    cases hkind : spec.kind with
    | object typeName => exact absurd hkind (OptionKind.ne_object_of_parse hparse typeName)
    | _ => rfl
  · rw [hkind]
    rfl

/-- What an option gets has a text exactly if the option holds no object, whatever the resolver. -/
theorem Resolves.isSome_text? {entries : RawValues}
    (hresolves : binder.Resolves component resolver spec entries (.ok (some value))) :
    value.text?.isSome = spec.kind.isScalar := by
  rcases hresolves.of_some with ⟨text, hread⟩ | ⟨reference, rfl, hautowires⟩ |
    ⟨key, raw, -, hcoerces⟩
  · exact hread.origin.isSome_text?
  · obtain ⟨-, -, typeName, hkind, -⟩ := hautowires
    rw [hkind]
    rfl
  · exact hcoerces.origin.isSome_text?

theorem textsOfKinds_of_bind (hbind : (binder.bind schema raw resolver).value = .ok bound) :
    bound.TextsOfKinds := by
  obtain rfl := schema_of_bind_eq_ok hbind
  intro spec hspec value hget
  obtain ⟨index, hindex⟩ := List.mem_iff_getElem?.mp hspec
  obtain ⟨slot, hslot, hresolved⟩ := resolved_of_bind_eq_ok hbind hindex
  rw [Bound.get?_of_leads ⟨hindex, rfl⟩, hslot, Option.join_some] at hget
  subst hget
  exact (resolves_iff.mpr hresolved.symm).isSome_text?

/-- The two ways to write out a configuration that is bound. The properties hold the text of each
value that has one. The redacted properties hold the mark for each secret option that has a value,
and for every other option what the properties hold. So the names that they have besides are those
of secret options that hold objects, and without these they are the properties with secrets masked.
The names are the same, and the redacted properties are the properties with secrets masked, exactly
if no secret option holds an object. -/
theorem redacted_of_bind (hbind : (binder.bind schema raw resolver).value = .ok bound) :
    (∀ spec ∈ schema.options,
      Fields.get? spec.name bound.properties = (bound.get? spec.name).bind OptionValue.text? ∧
        Fields.get? spec.name bound.redactedProperties =
          if spec.secret then (bound.get? spec.name).map fun _ ↦ redacted
          else Fields.get? spec.name bound.properties) ∧
      (∀ name, name ∈ Fields.names bound.redactedProperties ↔
        name ∈ Fields.names bound.properties ∨
          ∃ spec ∈ schema.options, spec.name = name ∧ bound.HidesObject spec) ∧
      schema.masked bound.properties =
        bound.redactedProperties.filter (fun field ↦ Fields.has field.1 bound.properties) ∧
      (Fields.names bound.redactedProperties = Fields.names bound.properties ↔
        ∀ spec ∈ schema.options, ¬ bound.HidesObject spec) ∧
      (bound.redactedProperties = schema.masked bound.properties ↔
        ∀ spec ∈ schema.options, ¬ bound.HidesObject spec) := by
  have htexts := textsOfKinds_of_bind hbind
  obtain rfl := schema_of_bind_eq_ok hbind
  refine ⟨fun spec hspec ↦ ⟨Bound.get?_properties hspec, Bound.get?_redactedProperties hspec⟩,
    fun name ↦ Bound.mem_names_redactedProperties_iff_or htexts, bound.masked_properties, ?_, ?_⟩
  · constructor
    · exact fun hnames spec hspec ↦ Bound.not_hidesObject_of_names_eq htexts hnames hspec
    · intro hnone
      rw [Bound.redactedProperties_eq_masked htexts hnone, Schema.names_masked]
  · constructor
    · intro hmasked spec hspec
      refine Bound.not_hidesObject_of_names_eq htexts ?_ hspec
      rw [hmasked, Schema.names_masked]
    · exact Bound.redactedProperties_eq_masked htexts

/-- A pin, which is masked, beside a note, which is not. -/
theorem redacted_of_bind_vault :
    let raw : RawValues := [("note", .text "n"), ("p.in", .text "+01234")]
    let binder : Binder := {}
    let bound : Bound := ⟨vault, [some (.int 1234), none, none, some (.string "n")]⟩
    (binder.bind vault raw .none).value = .ok bound ∧
      (∀ spec ∈ vault.options, ¬ bound.HidesObject spec) ∧
      bound.properties = [("note", "n"), ("pin", "1234")] ∧
      bound.redactedProperties = [("note", "n"), ("pin", redacted)] ∧
      Fields.names bound.redactedProperties = Fields.names bound.properties := by
  intro raw binder bound
  have hbind : (binder.bind vault raw .none).value = .ok bound := by decide +kernel
  have hnone : ∀ spec ∈ vault.options, ¬ bound.HidesObject spec := by decide +kernel
  have hproperties : bound.properties = [("note", "n"), ("pin", "1234")] := by decide +kernel
  obtain ⟨-, -, -, hnames, hmasked⟩ := redacted_of_bind hbind
  refine ⟨hbind, hnone, hproperties, (hmasked.mpr hnone).trans ?_, hnames.mpr hnone⟩
  rw [hproperties]
  decide +kernel

/-- A secret object is named by the redacted properties though the properties leave objects out. -/
theorem secret_object_listed :
    let key := ObjectRef.ofType 1 "keys::Key"
    let binder : Binder := {}
    let bound : Bound := ⟨vault, [none, none, some (.object key), none]⟩
    (binder.bind vault [("key", .object key)] .none).value = .ok bound ∧
      bound.properties = [] ∧ bound.redactedProperties = [("key", redacted)] ∧
      Fields.names bound.redactedProperties ≠ Fields.names bound.properties := by
  decide +kernel

end Binder

end Connectors
