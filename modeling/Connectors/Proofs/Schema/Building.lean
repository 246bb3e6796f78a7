import Connectors.Proofs.Schema.Consistency

/-!
# Which drafts are schemas, and what a name leads to

A draft is built exactly if its options are `Consistent`: their names are different in every
spelling, each default reads as a value of its option, and an option that holds an object has none.
Otherwise the first option at fault is reported (`Draft.Refused`): the one that repeats a name, or
whose default is `Inadmissible`, while the options before it are consistent.

In a schema a name in any spelling leads to the only option of its normal form, which stands at the
position that the index has for the name (`Schema.option?_eq_some_iff`,
`Schema.indexOf?_eq_some_iff`).
-/

set_option autoImplicit false
set_option relaxedAutoImplicit false

namespace Connectors

/-! ### Defaults -/

/-- What keeps a text from being the default of an option. -/
inductive OptionSpec.Inadmissible (spec : OptionSpec) (text : String) : DefaultFault → Prop
  | objectReference {typeName : String} (hkind : spec.kind = .object typeName) :
      Inadmissible spec text .objectReference
  | notAllowed {allowed : List String} (hkind : spec.kind = .enum allowed)
      (habsent : text ∉ allowed) : Inadmissible spec text (.notAllowed spec.kind)
  | malformed (hobject : ∀ typeName, spec.kind ≠ .object typeName)
      (henum : ∀ allowed, spec.kind ≠ .enum allowed)
      (hparse : ∀ value, spec.kind.parse text ≠ .ok value) :
      Inadmissible spec text (.malformed spec.kind)

namespace OptionSpec

variable {spec : OptionSpec} {text : String} {fault : DefaultFault}

/-- A fault is found in a default exactly if the default has it. -/
theorem defaultFault?_eq_some_iff (hfallback : spec.fallback = some text) :
    spec.defaultFault? = some fault ↔ spec.Inadmissible text fault := by
  simp only [defaultFault?, hfallback]
  constructor
  · intro hfault
    split at hfault
    · rename_i hkind
      exact Option.some.inj hfault ▸ .objectReference hkind
    · cases hfault
    · rename_i hparse _
      obtain ⟨allowed, hkind, habsent⟩ := OptionKind.parse_eq_notInEnum_iff.mp hparse
      exact Option.some.inj hfault ▸ .notAllowed hkind habsent
    · rename_i hparse hobject
      obtain ⟨henum, hvalue⟩ := OptionKind.parse_eq_malformed_iff.mp hparse
      exact Option.some.inj hfault ▸ .malformed hobject henum hvalue
  · intro hinadmissible
    cases hinadmissible with
    | objectReference hkind => simp [hkind]
    | notAllowed hkind habsent => simp [hkind, OptionKind.parse, habsent]
    | malformed hobject henum hparse =>
      rw [OptionKind.parse_eq_malformed_iff.mpr ⟨henum, hparse⟩]
      cases hkind : spec.kind with
      | object typeName => exact absurd hkind (hobject typeName)
      | _ => rfl

end OptionSpec

/-! ### Options that are refused -/

namespace NameIndex

variable {index : NameIndex} {options : List OptionSpec} {spec : OptionSpec} {fault : OptionsFault}

/-- Why an option is refused after others: it repeats a name, or else its default is
inadmissible. -/
theorem enter_singleton_eq_error_iff (hindexes : index.Indexes options) :
    index.enter options.length [spec] = .error fault ↔
      (spec.Repeats options ∧ fault = .repeated spec) ∨
        ¬ spec.Repeats options ∧ ∃ text reason, spec.fallback = some text ∧
          spec.Inadmissible text reason ∧ fault = .badDefault spec text reason := by
  rw [← hindexes.has_iff, enter]
  split_ifs with hhas
  · simp [hhas, eq_comm]
  · cases hfallback : spec.fallback with
    | none => simp [OptionSpec.defaultFault?, hhas, hfallback, enter]
    | some text =>
      have hreason : ∀ reason, spec.Inadmissible text reason ↔ spec.defaultFault? = some reason :=
        fun reason ↦ (OptionSpec.defaultFault?_eq_some_iff hfallback).symm
      cases hfault : spec.defaultFault? <;> simp [hhas, hreason, hfault, enter, eq_comm]

/-- The fault of options is that of one which comes after options that are entered. -/
theorem enter_eq_error_iff : enter [] 0 options = .error fault ↔
    ∃ before spec after index, options = before ++ spec :: after ∧ enter [] 0 before = .ok index ∧
      index.enter before.length [spec] = .error fault := by
  constructor
  · intro hfault
    induction options using List.reverseRecOn with
    | nil => cases hfault
    | append_singleton options spec ih =>
      rw [enter_concat] at hfault
      cases hbefore : enter [] 0 options with
      | error first =>
        rw [hbefore] at hfault
        obtain ⟨before, first, after, index, rfl, hindex, hfirst⟩ := ih (hbefore.trans hfault)
        exact ⟨before, first, after ++ [spec], index, by simp, hindex, hfirst⟩
      | ok index =>
        rw [hbefore] at hfault
        exact ⟨options, spec, [], index, rfl, hbefore, hfault⟩
  · rintro ⟨before, spec, after, index, rfl, hbefore, hspec⟩
    have hconcat : enter [] 0 (before ++ [spec]) = .error fault := by
      rw [enter_concat, hbefore]
      exact hspec
    rw [List.append_cons, enter_append, hconcat]
    rfl

end NameIndex

/-! ### Building -/

namespace Draft

/-- The error of a draft that is no schema: that of the first option which repeats a name or has an
inadmissible default. Of an option that does both, the repeated name is reported. -/
inductive Refused (draft : Draft) : SchemaError → Prop
  | repeated {before after : List OptionSpec} {spec : OptionSpec}
      (hoptions : draft.options = before ++ spec :: after) (hbefore : Consistent before)
      (hrepeats : spec.Repeats before) : Refused draft (.duplicateOption draft.id spec.name)
  | inadmissible {before after : List OptionSpec} {spec : OptionSpec} {text : String}
      {fault : DefaultFault} (hoptions : draft.options = before ++ spec :: after)
      (hbefore : Consistent before) (hnew : ¬ spec.Repeats before)
      (hfallback : spec.fallback = some text) (hfault : spec.Inadmissible text fault) :
      Refused draft (.invalidDefault draft.id spec.name text fault)

/-- The error that a fault of the options is reported as. -/
def refusal (draft : Draft) : OptionsFault → SchemaError
  | .repeated spec => .duplicateOption draft.id spec.name
  | .badDefault spec value reason => .invalidDefault draft.id spec.name value reason

/-- The ways in which building ends. -/
theorem build_cases (draft : Draft) :
    (∃ index, ∃ hindexed : NameIndex.enter [] 0 draft.options = .ok index,
        draft.build = .ok ⟨draft, index, hindexed⟩) ∨
      ∃ fault, NameIndex.enter [] 0 draft.options = .error fault ∧
        draft.build = .error (draft.refusal fault) := by
  unfold build
  split
  · rename_i index hindexed
    exact .inl ⟨index, hindexed, rfl⟩
  · rename_i spec hfault
    exact .inr ⟨.repeated spec, hfault, rfl⟩
  · rename_i spec value reason hfault
    exact .inr ⟨.badDefault spec value reason, hfault, rfl⟩

/-- What is built from a draft holds the draft, and every schema is built from what it holds. -/
theorem build_eq_ok_iff {draft : Draft} {schema : Schema} :
    draft.build = .ok schema ↔ schema.toDraft = draft := by
  rcases draft.build_cases with ⟨index, hindexed, hbuild⟩ | ⟨fault, hfault, hbuild⟩
  · rw [hbuild, Except.ok.injEq]
    constructor
    · rintro rfl
      rfl
    · rintro rfl
      obtain rfl := Except.ok.inj (hindexed.symm.trans schema.indexed)
      rfl
  · rw [hbuild]
    simp only [reduceCtorEq, false_iff]
    rintro rfl
    cases schema.indexed.symm.trans hfault

theorem build_eq_error_iff_enter {draft : Draft} {error : SchemaError} :
    draft.build = .error error ↔
      ∃ fault, NameIndex.enter [] 0 draft.options = .error fault ∧ draft.refusal fault = error := by
  rcases draft.build_cases with ⟨index, hindexed, hbuild⟩ | ⟨fault, hfault, hbuild⟩
  · simp [hbuild, hindexed]
  · simp [hbuild, hfault]

/-- A draft is refused for the first of its options that is at fault. -/
theorem build_eq_error_iff {draft : Draft} {error : SchemaError} :
    draft.build = .error error ↔ draft.Refused error := by
  rw [build_eq_error_iff_enter]
  constructor
  · rintro ⟨fault, hfault, rfl⟩
    obtain ⟨before, spec, after, index, hoptions, hbefore, hspec⟩ :=
      NameIndex.enter_eq_error_iff.mp hfault
    have hconsistent : Consistent before := NameIndex.exists_enter_iff.mp ⟨index, hbefore⟩
    have hindexes := NameIndex.indexes_of_enter hbefore
    rcases (NameIndex.enter_singleton_eq_error_iff hindexes).mp hspec with
      ⟨hrepeats, rfl⟩ | ⟨hnew, text, reason, hfallback, hbad, rfl⟩
    · exact .repeated hoptions hconsistent hrepeats
    · exact .inadmissible hoptions hconsistent hnew hfallback hbad
  · intro hrefused
    have hfirst : ∀ {before after spec fault}, draft.options = before ++ spec :: after →
        Consistent before → (∀ index : NameIndex, index.Indexes before →
          index.enter before.length [spec] = .error fault) →
        NameIndex.enter [] 0 draft.options = .error fault := by
      intro before after spec fault hoptions hbefore hspec
      obtain ⟨index, hindex⟩ := NameIndex.exists_enter_iff.mpr hbefore
      exact NameIndex.enter_eq_error_iff.mpr ⟨before, spec, after, index, hoptions, hindex,
        hspec index (NameIndex.indexes_of_enter hindex)⟩
    cases hrefused with
    | @repeated _ _ spec hoptions hbefore hrepeats =>
      exact ⟨.repeated spec, hfirst hoptions hbefore fun _ hindexes ↦
        (NameIndex.enter_singleton_eq_error_iff hindexes).mpr (.inl ⟨hrepeats, rfl⟩), rfl⟩
    | @inadmissible _ _ spec text reason hoptions hbefore hnew hfallback hbad =>
      exact ⟨.badDefault spec text reason, hfirst hoptions hbefore fun _ hindexes ↦
        (NameIndex.enter_singleton_eq_error_iff hindexes).mpr
          (.inr ⟨hnew, text, reason, hfallback, hbad, rfl⟩), rfl⟩

theorem exists_build_iff {draft : Draft} :
    (∃ schema, draft.build = .ok schema) ↔ Consistent draft.options := by
  simp only [build_eq_ok_iff]
  refine ⟨fun ⟨schema, hdraft⟩ ↦ hdraft ▸ schema.consistent, fun hconsistent ↦ ?_⟩
  obtain ⟨index, hindexed⟩ := NameIndex.exists_enter_iff.mpr hconsistent
  exact ⟨⟨draft, index, hindexed⟩, rfl⟩

end Draft

/-! ### Names -/

namespace Schema

variable {schema : Schema} {key : String} {index : Nat} {spec : OptionSpec}

/-- A name in any spelling leads to an option, which stands at a position. -/
def Leads (schema : Schema) (key : String) (index : Nat) (spec : OptionSpec) : Prop :=
  schema.options[index]? = some spec ∧ Key.normal spec.name = Key.normal key

/-- A name leads to one place of a schema only. -/
theorem Leads.unique {other : Nat} {spec' : OptionSpec} (hleads : schema.Leads key index spec)
    (hother : schema.Leads key other spec') : index = other ∧ spec = spec' := by
  have hforms : (schema.options.map fun spec ↦ Key.normal spec.name)[index]? =
      (schema.options.map fun spec ↦ Key.normal spec.name)[other]? := by
    simp [hleads.1, hother.1, hleads.2, hother.2]
  have hlength : index < (schema.options.map fun spec ↦ Key.normal spec.name).length := by
    simpa using (List.getElem?_eq_some_iff.mp hleads.1).1
  obtain rfl := (List.getElem?_inj hlength schema.nodup_forms).mp hforms
  exact ⟨rfl, Option.some.inj (hleads.1.symm.trans hother.1)⟩

theorem indexOf?_eq_some_iff :
    schema.indexOf? key = some index ↔ ∃ spec, schema.Leads key index spec := by
  constructor
  · exact schema.indexes.placed _ index
  · rintro ⟨spec, hspec, hname⟩
    rw [indexOf?, ← hname]
    exact schema.indexes.total index spec hspec

theorem option?_eq_some_iff :
    schema.option? key = some spec ↔ ∃ index, schema.Leads key index spec := by
  rw [option?, Option.bind_eq_some_iff]
  constructor
  · rintro ⟨index, hindex, hspec⟩
    obtain ⟨other, hleads⟩ := indexOf?_eq_some_iff.mp hindex
    exact ⟨index, hspec, Option.some.inj (hspec.symm.trans hleads.1) ▸ hleads.2⟩
  · rintro ⟨index, hleads⟩
    exact ⟨index, indexOf?_eq_some_iff.mpr ⟨spec, hleads⟩, hleads.1⟩

/-- What looking a name up in a schema gives. -/
structure FindsByName (schema : Schema) (key : String) : Prop where
  /-- An option is found exactly if the name is that of one, in some spelling. -/
  found : (∃ spec, schema.option? key = some spec) ↔
    ∃ spec ∈ schema.options, Key.normal spec.name = Key.normal key
  /-- The option that is found stands at the position of the name. -/
  placed : ∀ spec, schema.option? key = some spec ↔
    ∃ index, schema.indexOf? key = some index ∧ schema.options[index]? = some spec
  /-- The position of a name is that of an option it leads to. -/
  position : ∀ index, schema.indexOf? key = some index ↔ ∃ spec, schema.Leads key index spec
  /-- No other place has an option of the name. -/
  unique : ∀ index spec other spec', schema.Leads key index spec →
    schema.Leads key other spec' → index = other ∧ spec = spec'

theorem findsByName (schema : Schema) (key : String) : schema.FindsByName key where
  found := by
    simp only [option?_eq_some_iff, Leads, List.mem_iff_getElem?]
    exact ⟨fun ⟨spec, index, hspec, hname⟩ ↦ ⟨spec, ⟨index, hspec⟩, hname⟩,
      fun ⟨spec, ⟨index, hspec⟩, hname⟩ ↦ ⟨spec, index, hspec, hname⟩⟩
  placed _ := Option.bind_eq_some_iff
  position _ := indexOf?_eq_some_iff
  unique _ _ _ _ hleads hother := hleads.unique hother

end Schema

/-- A draft is built exactly if its options are consistent, and any other one is refused for the
first option at fault. What is built has the options of the draft, and an index with every option
under the normal form of its name, with its position, under no two forms and with nothing else. So a
name in any spelling leads to the option of its normal form, if there is one, to its position, and
to no other option. -/
theorem Draft.build_of_options (draft : Draft) :
    ((∃ schema, draft.build = .ok schema) ↔ Consistent draft.options) ∧
    (∀ error, draft.build = .error error ↔ draft.Refused error) ∧
    ∀ schema, draft.build = .ok schema →
      schema.toDraft = draft ∧ schema.index.Indexes draft.options ∧
      (∀ form other position, Fields.get? form schema.index = some position →
        Fields.get? other schema.index = some position → form = other) ∧
      ∀ key, schema.FindsByName key := by
  refine ⟨exists_build_iff, fun _ ↦ build_eq_error_iff, fun schema hbuild ↦ ?_⟩
  obtain rfl := build_eq_ok_iff.mp hbuild
  exact ⟨rfl, schema.indexes, fun _ _ _ ↦ schema.indexes.injective, schema.findsByName⟩

/-- A draft of a component that reads from a queue. -/
def Draft.payments : Draft where
  id := "payments"
  options := [{ name := "queueName", kind := .string, required := true },
    { name := "prefetch", kind := .int, fallback := some "20" }]

/-- The draft of a queue is built, and its names are found in any spelling. With an option that
repeats a name and has a bad default it is refused for the name. -/
theorem Draft.build_of_options_payments :
    let again : OptionSpec := { name := "queue-name", kind := .int, fallback := some "many" }
    (∃ schema, payments.build = .ok schema ∧ schema.toDraft = payments ∧
      Fields.get? "prefetch" schema.index = some 1 ∧ schema.FindsByName "QUEUE_NAME") ∧
    ({ payments with options := payments.options ++ [again] } : Draft).build =
      .error (.duplicateOption "payments" "queue-name") := by
  intro again
  have hconsistent : Consistent payments.options :=
    NameIndex.exists_enter_iff.mp ⟨[("prefetch", 1), ("queuename", 0)], by decide +kernel⟩
  constructor
  · obtain ⟨hbuilt, -, hfinds⟩ := payments.build_of_options
    obtain ⟨schema, hbuild⟩ := hbuilt.mpr hconsistent
    obtain ⟨hdraft, hindexes, -, hnames⟩ := hfinds schema hbuild
    exact ⟨schema, hbuild, hdraft, hindexes.total 1 _ rfl, hnames "QUEUE_NAME"⟩
  · have hrepeats : again.Repeats payments.options := ⟨_, List.mem_cons_self, by decide +kernel⟩
    have hrefused := @Refused.repeated { payments with options := payments.options ++ [again] }
      payments.options [] again rfl hconsistent hrepeats
    exact ((build_of_options _).2.1 _).mpr hrefused

end Connectors
