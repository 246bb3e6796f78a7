import Connectors.Proofs.Binding.Supplied
import Connectors.Proofs.Schema.Consistency
import Connectors.Proofs.Traversal
import Mathlib.Data.List.Sort
import Mathlib.Data.String.Basic

/-!
# What binding means

`Binder.bind` takes groups of keys out of one collection while it goes through the options of a
schema, and stops early at whatever is wrong. This module says without any of that what the answer
is. `Coerces` relates an entry to the value it gives to an option, `Resolves` relates the entries
that lead to an option to what becomes of the option, and `Binds` relates all raw values to the
answer: the error of the first option at fault, or else the smallest key that leads nowhere if the
binder is strict, or else the values of all options in order.

`bind_value_eq_iff` proves that binding has exactly the answer that `Binds` describes, and
`bind_events` that it reports what its options report, up to the first at fault. The consequences
are that a strict binding which succeeds is the lenient one, that keys which lead nowhere do not
matter to a lenient binder, and that an option depends on its own entries only (`bind_reference`).

The order of raw values carries no meaning, so entries are compared up to permutation.
-/

set_option autoImplicit false
set_option relaxedAutoImplicit false

namespace Connectors.Binder

/-! ### The relations -/

/-- What an error shows of a text that is given for an option. -/
def shown (spec : OptionSpec) (text : String) : String :=
  if spec.secret then redacted else text

/-- What a text gives to an option that is read from text. -/
inductive ReadsText (component : String) (spec : OptionSpec) (text : String) :
    Except BindError OptionValue → Prop
  | value {value : OptionValue} (hparse : spec.kind.parse text = .ok value) :
      ReadsText component spec text (.ok value)
  | notAllowed {allowed : List String} (hkind : spec.kind = .enum allowed)
      (habsent : text ∉ allowed) :
      ReadsText component spec text
        (.error (.invalidEnumValue component spec.name (shown spec text) allowed))
  | malformed (hkind : ∀ allowed, spec.kind ≠ .enum allowed)
      (hparse : ∀ value, spec.kind.parse text ≠ .ok value) :
      ReadsText component spec text
        (.error (.typeCoercion component spec.name (shown spec text) spec.kind))

/-- What an object gives to an option. -/
inductive TakesObject (component : String) (spec : OptionSpec) (reference : ObjectRef) :
    Except BindError OptionValue → Prop
  | offered (hkind : spec.kind = .object reference.typeName) :
      TakesObject component spec reference (.ok (.object reference))
  | refused (hkind : spec.kind ≠ .object reference.typeName) :
      TakesObject component spec reference
        (.error (.typeCoercion component spec.name ("<" ++ reference.typeName ++ ">") spec.kind))

/-- What an entry gives to an option: a text is read by the kind of the option or, for an option
that holds an object, is the name of one. -/
inductive Coerces (component : String) (resolver : Resolver) (spec : OptionSpec) :
    RawValue → Except BindError OptionValue → Prop
  | text {text : String} {outcome : Except BindError OptionValue}
      (hkind : ∀ typeName, spec.kind ≠ .object typeName)
      (hread : ReadsText component spec text outcome) :
      Coerces component resolver spec (.text text) outcome
  | unresolved {text typeName : String} (hkind : spec.kind = .object typeName)
      (hlookup : resolver.lookup (referenceName text) = none) :
      Coerces component resolver spec (.text text)
        (.error (.unresolvedReference component spec.name (referenceName text)))
  | named {text typeName : String} {reference : ObjectRef}
      {outcome : Except BindError OptionValue} (hkind : spec.kind = .object typeName)
      (hlookup : resolver.lookup (referenceName text) = some reference)
      (htake : TakesObject component spec reference outcome) :
      Coerces component resolver spec (.text text) outcome
  | object {reference : ObjectRef} {outcome : Except BindError OptionValue}
      (htake : TakesObject component spec reference outcome) :
      Coerces component resolver spec (.object reference) outcome

/-- An object is the only candidate for an option that is filled by type. -/
def Autowires (binder : Binder) (resolver : Resolver) (spec : OptionSpec)
    (reference : ObjectRef) : Prop :=
  binder.autowire = true ∧ spec.autowired = true ∧
    ∃ typeName, spec.kind = .object typeName ∧ resolver.findByType typeName = [reference]

/-- What becomes of an option, given the entries whose keys lead to it. -/
inductive Resolves (binder : Binder) (component : String) (resolver : Resolver)
    (spec : OptionSpec) (entries : RawValues) : Except BindError (Option OptionValue) → Prop
  | fallback {text : String} {outcome : Except BindError OptionValue} (hnone : entries = [])
      (hfallback : spec.fallback = some text) (hread : ReadsText component spec text outcome) :
      Resolves binder component resolver spec entries (outcome.map some)
  | autowired {reference : ObjectRef} (hnone : entries = []) (hfallback : spec.fallback = none)
      (hautowires : binder.Autowires resolver spec reference) :
      Resolves binder component resolver spec entries (.ok (some (.object reference)))
  | missing (hnone : entries = []) (hfallback : spec.fallback = none)
      (hautowires : ∀ reference, ¬ binder.Autowires resolver spec reference)
      (hrequired : spec.required = true) :
      Resolves binder component resolver spec entries
        (.error (.missingRequired component spec.name))
  | unset (hnone : entries = []) (hfallback : spec.fallback = none)
      (hautowires : ∀ reference, ¬ binder.Autowires resolver spec reference)
      (hrequired : spec.required = false) :
      Resolves binder component resolver spec entries (.ok none)
  | supplied {key : String} {raw : RawValue} {outcome : Except BindError OptionValue}
      (hone : entries = [(key, raw)]) (hcoerce : Coerces component resolver spec raw outcome) :
      Resolves binder component resolver spec entries (outcome.map some)
  | conflicting {keys : List String} (hseveral : 2 ≤ entries.length)
      (hkeys : keys.Perm (entries.map (·.1))) (hsorted : keys.Pairwise (· ≤ ·)) :
      Resolves binder component resolver spec entries
        (.error (.conflictingKeys component spec.name keys))

/-- The raw entries whose keys lead to an option. -/
def entriesOf (raw : RawValues) (spec : OptionSpec) : RawValues :=
  raw.filter fun entry ↦ Key.agree entry.1 spec.name

/-- A key that leads to none of some options. -/
def LeadsNowhere (options : List OptionSpec) (key : String) : Prop :=
  ∀ spec ∈ options, Key.normal key ≠ Key.normal spec.name

instance (options : List OptionSpec) (key : String) : Decidable (LeadsNowhere options key) :=
  inferInstanceAs (Decidable (∀ spec ∈ options, Key.normal key ≠ Key.normal spec.name))

/-- The answer that raw values have. -/
inductive Binds (binder : Binder) (schema : Schema) (resolver : Resolver) (raw : RawValues) :
    Except BindError Bound → Prop
  | refused {before after : List OptionSpec} {spec : OptionSpec} {error : BindError}
      (hoptions : schema.options = before ++ spec :: after)
      (hbefore : ∀ earlier ∈ before, ∃ value,
        binder.Resolves schema.id resolver earlier (entriesOf raw earlier) (.ok value))
      (hspec : binder.Resolves schema.id resolver spec (entriesOf raw spec) (.error error)) :
      Binds binder schema resolver raw (.error error)
  | unknown {values : List (Option OptionValue)} {key : String}
      (hvalues : List.Forall₂ (fun spec value ↦
        binder.Resolves schema.id resolver spec (entriesOf raw spec) (.ok value))
        schema.options values)
      (hstrict : binder.unknownKeys = .strict) (hkey : key ∈ raw.map (·.1))
      (hnowhere : LeadsNowhere schema.options key)
      (hsmallest : ∀ other ∈ raw.map (·.1), LeadsNowhere schema.options other → key ≤ other) :
      Binds binder schema resolver raw (.error (.unknownOption schema.id key))
  | bound {values : List (Option OptionValue)}
      (hvalues : List.Forall₂ (fun spec value ↦
        binder.Resolves schema.id resolver spec (entriesOf raw spec) (.ok value))
        schema.options values)
      (haccepted : binder.unknownKeys = .lenient ∨
        ∀ key ∈ raw.map (·.1), ¬ LeadsNowhere schema.options key) :
      Binds binder schema resolver raw (.ok ⟨schema, values⟩)

/-! ### One option -/

variable {binder : Binder} {component : String} {resolver : Resolver} {spec : OptionSpec}

theorem readsText_iff {text : String} {outcome : Except BindError OptionValue} :
    ReadsText component spec text outcome ↔ outcome = coerceText component spec text := by
  constructor
  · intro hread
    cases hread with
    | value hparse => simp [coerceText, hparse]
    | notAllowed hkind habsent => simp [coerceText, hkind, OptionKind.parse, habsent, shown]
    | malformed hkind hparse =>
      simp [coerceText, OptionKind.parse_eq_malformed_iff.mpr ⟨hkind, hparse⟩, shown]
  · rintro rfl
    cases hparse : spec.kind.parse text with
    | ok value => simpa [coerceText, hparse] using ReadsText.value hparse
    | error failure =>
      cases failure with
      | notInEnum =>
        obtain ⟨allowed, hkind, habsent⟩ := OptionKind.parse_eq_notInEnum_iff.mp hparse
        have hread : ReadsText component spec text _ := .notAllowed hkind habsent
        simpa [coerceText, hkind, OptionKind.parse, habsent, shown] using hread
      | malformed =>
        obtain ⟨hkind, hvalue⟩ := OptionKind.parse_eq_malformed_iff.mp hparse
        have hread : ReadsText component spec text _ := .malformed hkind hvalue
        simpa [coerceText, hparse, shown] using hread

theorem takesObject_iff {reference : ObjectRef} {outcome : Except BindError OptionValue} :
    TakesObject component spec reference outcome ↔
      outcome = checkObject component spec reference := by
  have hcheck : checkObject component spec reference =
      if spec.kind = .object reference.typeName then .ok (.object reference)
      else .error (.typeCoercion component spec.name ("<" ++ reference.typeName ++ ">")
        spec.kind) := by
    cases hkind : spec.kind with
    | object typeName =>
      by_cases hsame : reference.typeName = typeName
      · simp [checkObject, hkind, ObjectRef.isType, hsame]
      · simp [checkObject, hkind, ObjectRef.isType, hsame, Ne.symm hsame]
    | _ => simp [checkObject, hkind]
  rw [hcheck]
  constructor
  · intro htake
    cases htake with
    | offered hkind => rw [if_pos hkind]
    | refused hkind => rw [if_neg hkind]
  · rintro rfl
    split_ifs with hkind
    · exact .offered hkind
    · exact .refused hkind

theorem coerces_iff {raw : RawValue} {outcome : Except BindError OptionValue} :
    Coerces component resolver spec raw outcome ↔
      outcome = coerce component resolver spec raw := by
  constructor
  · intro hcoerces
    cases hcoerces with
    | text hkind hread =>
      rw [readsText_iff.mp hread]
      cases hk : spec.kind <;> simp_all [coerce]
    | unresolved hkind hlookup => simp [coerce, hkind, hlookup]
    | named hkind hlookup htake =>
      rw [takesObject_iff.mp htake]
      simp [coerce, hkind, hlookup]
    | object htake =>
      rw [takesObject_iff.mp htake]
      simp [coerce]
  · rintro rfl
    cases raw with
    | object reference => exact .object (takesObject_iff.mpr (by simp [coerce]))
    | text text =>
      by_cases hobject : ∃ typeName, spec.kind = .object typeName
      · obtain ⟨typeName, hkind⟩ := hobject
        cases hlookup : resolver.lookup (referenceName text) with
        | none => simpa [coerce, hkind, hlookup] using Coerces.unresolved hkind hlookup
        | some reference =>
          exact .named hkind hlookup (takesObject_iff.mpr (by simp [coerce, hkind, hlookup]))
      · have hkind : ∀ typeName, spec.kind ≠ .object typeName := fun typeName h ↦
          hobject ⟨typeName, h⟩
        refine .text hkind (readsText_iff.mpr ?_)
        cases hk : spec.kind <;> simp_all [coerce]

theorem autowires_iff {reference : ObjectRef} :
    binder.Autowires resolver spec reference ↔
      binder.autowired? resolver spec = some reference := by
  unfold Autowires autowired?
  cases hkind : spec.kind with
  | object typeName =>
    by_cases hon : binder.autowire = true ∧ spec.autowired = true
    · cases hfound : resolver.findByType typeName with
      | nil => simp [hon, hfound]
      | cons first rest => cases rest <;> simp [hon, hfound]
    · have hoff : (binder.autowire && spec.autowired) = false := by
        simpa using hon
      simp only [hoff, Bool.false_eq_true, if_false, reduceCtorEq, iff_false]
      exact fun h ↦ hon ⟨h.1, h.2.1⟩
  | _ => simp

theorem not_autowires_iff :
    (∀ reference, ¬ binder.Autowires resolver spec reference) ↔
      binder.autowired? resolver spec = none := by
  simp [autowires_iff, Option.eq_none_iff_forall_ne_some]

/-! ### Sorted keys -/

/-- A list of texts in order is the only one with its elements. -/
theorem eq_mergeSort {keys others : List String} (hkeys : keys.Perm others)
    (hsorted : keys.Pairwise (· ≤ ·)) : keys = others.mergeSort (· ≤ ·) :=
  (hkeys.trans (List.mergeSort_perm others _).symm).eq_of_pairwise' hsorted
    (List.pairwise_mergeSort' (· ≤ ·) others)

theorem mergeSort_eq_of_perm {keys others : List String} (hkeys : keys.Perm others) :
    keys.mergeSort (· ≤ ·) = others.mergeSort (· ≤ ·) :=
  eq_mergeSort ((List.mergeSort_perm keys _).trans hkeys) (List.pairwise_mergeSort' (· ≤ ·) keys)

/-- The first of some texts in order is the smallest of them. -/
theorem mergeSort_eq_cons {keys rest : List String} {key : String}
    (hsort : keys.mergeSort (· ≤ ·) = key :: rest) :
    key ∈ keys ∧ ∀ other ∈ keys, key ≤ other := by
  have hmem : ∀ other, other ∈ key :: rest ↔ other ∈ keys := fun other ↦ by
    rw [← hsort, List.mem_mergeSort]
  have hsorted : (key :: rest).Pairwise (· ≤ ·) :=
    hsort ▸ List.pairwise_mergeSort' (· ≤ ·) keys
  refine ⟨(hmem key).mp List.mem_cons_self, fun other hother ↦ ?_⟩
  rcases List.mem_cons.mp ((hmem other).mpr hother) with rfl | hrest
  · exact le_refl _
  · exact (List.pairwise_cons.mp hsorted).1 other hrest

/-! ### What becomes of an option -/

theorem resolves_iff {entries : RawValues} {outcome : Except BindError (Option OptionValue)} :
    binder.Resolves component resolver spec entries outcome ↔
      outcome = (binder.resolve component resolver spec entries).value := by
  constructor
  · intro hresolves
    cases hresolves with
    | fallback hnone hfallback hread =>
      simp [resolve, hnone, absent, hfallback, readsText_iff.mp hread]
    | autowired hnone hfallback hautowires =>
      simp [resolve, hnone, absent, hfallback, autowires_iff.mp hautowires]
    | missing hnone hfallback hautowires hrequired =>
      simp [resolve, hnone, absent, hfallback, not_autowires_iff.mp hautowires, hrequired]
    | unset hnone hfallback hautowires hrequired =>
      simp [resolve, hnone, absent, hfallback, not_autowires_iff.mp hautowires, hrequired]
    | supplied hone hcoerce => simp [resolve, hone, coerces_iff.mp hcoerce]
    | conflicting hseveral hkeys hsorted =>
      match entries with
      | first :: second :: rest => simp [resolve, eq_mergeSort hkeys hsorted]
  · rintro rfl
    match entries with
    | [] =>
      simp only [resolve, absent]
      cases hfallback : spec.fallback with
      | some text => exact .fallback rfl hfallback (readsText_iff.mpr rfl)
      | none =>
        cases hautowired : binder.autowired? resolver spec with
        | some reference => exact .autowired rfl hfallback (autowires_iff.mpr hautowired)
        | none =>
          have hnot := not_autowires_iff.mpr hautowired
          cases hrequired : spec.required with
          | true => exact .missing rfl hfallback hnot hrequired
          | false => exact .unset rfl hfallback hnot hrequired
    | [(key, raw)] => exact .supplied rfl (coerces_iff.mpr rfl)
    | first :: second :: rest =>
      exact .conflicting (by simp) (List.mergeSort_perm _ _) (List.pairwise_mergeSort' _ _)

/-! ### The ways to an outcome -/

/-- An option that is left open has no entries and no default, and is not required. -/
theorem Resolves.of_none {entries : RawValues}
    (hresolves : binder.Resolves component resolver spec entries (.ok none)) :
    entries = [] ∧ spec.fallback = none ∧ spec.required = false := by
  generalize houtcome : Except.ok none = outcome at hresolves
  cases hresolves with
  | @fallback text outcome _ _ _ => cases outcome <;> cases houtcome
  | autowired => cases houtcome
  | missing => cases houtcome
  | unset hnone hfallback _ hrequired => exact ⟨hnone, hfallback, hrequired⟩
  | @supplied key raw outcome _ _ => cases outcome <;> cases houtcome
  | conflicting => cases houtcome

/-- The value of an option was read from its default, found by its type, or given. -/
theorem Resolves.of_some {entries : RawValues} {value : OptionValue}
    (hresolves : binder.Resolves component resolver spec entries (.ok (some value))) :
    (∃ text, ReadsText component spec text (.ok value)) ∨
      (∃ reference, value = .object reference ∧ binder.Autowires resolver spec reference) ∨
        ∃ key raw, entries = [(key, raw)] ∧ Coerces component resolver spec raw (.ok value) := by
  generalize houtcome : Except.ok (some value) = outcome at hresolves
  cases hresolves with
  | @fallback text outcome _ _ hread =>
    cases outcome with
    | error error => cases houtcome
    | ok held =>
      obtain rfl : value = held := by simpa [Except.map] using houtcome
      exact .inl ⟨text, hread⟩
  | @autowired reference _ _ hautowires =>
    exact .inr (.inl ⟨reference, by simpa using houtcome, hautowires⟩)
  | missing => cases houtcome
  | unset => cases houtcome
  | @supplied key raw outcome hone hcoerce =>
    cases outcome with
    | error error => cases houtcome
    | ok held =>
      obtain rfl : value = held := by simpa [Except.map] using houtcome
      exact .inr (.inr ⟨key, raw, hone, hcoerce⟩)
  | conflicting => cases houtcome

/-- An option is refused because of its default, because it has no value, because of the value
given, or because several are given. -/
theorem Resolves.of_error {entries : RawValues} {error : BindError}
    (hresolves : binder.Resolves component resolver spec entries (.error error)) :
    (∃ text, ReadsText component spec text (.error error)) ∨
      error = .missingRequired component spec.name ∨
        (∃ key raw, entries = [(key, raw)] ∧ Coerces component resolver spec raw (.error error)) ∨
          2 ≤ entries.length ∧ ∃ keys, error = .conflictingKeys component spec.name keys := by
  generalize houtcome : Except.error error = outcome at hresolves
  cases hresolves with
  | @fallback text outcome _ _ hread =>
    cases outcome with
    | ok value => cases houtcome
    | error held =>
      obtain rfl : error = held := by simpa [Except.map] using houtcome
      exact .inl ⟨text, hread⟩
  | autowired => cases houtcome
  | missing => exact .inr (.inl (Except.error.inj houtcome))
  | unset => cases houtcome
  | @supplied key raw outcome hone hcoerce =>
    cases outcome with
    | ok value => cases houtcome
    | error held =>
      obtain rfl : error = held := by simpa [Except.map] using houtcome
      exact .inr (.inr (.inl ⟨key, raw, hone, hcoerce⟩))
  | @conflicting keys hseveral _ _ =>
    exact .inr (.inr (.inr ⟨hseveral, keys, Except.error.inj houtcome⟩))

/-! ### The entries of an option -/

/-- The order of the entries that lead to an option does not matter to it. -/
theorem resolve_perm {entries others : RawValues} (hentries : entries.Perm others) :
    binder.resolve component resolver spec entries =
      binder.resolve component resolver spec others := by
  match entries, others with
  | [], others => rw [List.nil_perm.mp hentries]
  | [entry], others => rw [List.singleton_perm.mp hentries]
  | first :: second :: rest, [] => exact absurd hentries.length_eq (by simp)
  | first :: second :: rest, [_] => exact absurd hentries.length_eq (by simp)
  | first :: second :: rest, _ :: _ :: _ =>
    simp only [resolve, mergeSort_eq_of_perm (hentries.map (·.1))]

/-- An option with a single entry is refused by what is wrong with the entry. -/
theorem coerce_eq_error {entry : String × RawValue} {error : BindError}
    (hresolve : (binder.resolve component resolver spec [entry]).value = .error error) :
    coerce component resolver spec entry.2 = .error error := by
  cases hcoerce : coerce component resolver spec entry.2 <;> simp_all [resolve, Except.map]

/-- What becomes of an option when raw values are bound. -/
def resolved (binder : Binder) (component : String) (resolver : Resolver) (raw : RawValues)
    (spec : OptionSpec) : Except BindError (Option OptionValue) :=
  (binder.resolve component resolver spec (entriesOf raw spec)).value

/-! ### All options -/

/-- The normal forms of the names of options. -/
def forms (options : List OptionSpec) : List String :=
  options.map fun spec ↦ Key.normal spec.name

theorem leadsNowhere_iff {options : List OptionSpec} {key : String} :
    LeadsNowhere options key ↔ Key.normal key ∉ forms options := by
  simp [LeadsNowhere, forms, eq_comm]

/-- The events of options in turn, up to the first option that is refused. -/
def reports (resolution : OptionSpec → Logged (Except BindError (Option OptionValue))) :
    List OptionSpec → List Event
  | [] => []
  | spec :: rest =>
    (resolution spec).events ++
      match (resolution spec).value with
      | .error _ => []
      | .ok _ => reports resolution rest

/-- Options whose names differ take their values from groups that no earlier one has taken out, and
what they leave are the groups of other forms. -/
theorem bindOptions_eq {resolution : OptionSpec → Logged (Except BindError (Option OptionValue))}
    (options : List OptionSpec) (supplied : Supplied) (hforms : (forms options).Nodup)
    (hresolution : ∀ spec ∈ options, resolution spec =
      binder.resolve component resolver spec (supplied.group (Key.normal spec.name))) :
    binder.bindOptions component resolver supplied options =
      ⟨reports resolution options, (options.mapM fun spec ↦ (resolution spec).value).map
        fun values ↦ (values, supplied.filter fun group ↦ group.1 ∉ forms options)⟩ := by
  induction options generalizing supplied with
  | nil => simp [bindOptions, reports, forms, Except.map, pure, Except.pure]
  | cons spec rest ih =>
    obtain ⟨hspec, hrest⟩ := List.forall_mem_cons.mp hresolution
    obtain ⟨hnew, hdistinct⟩ := List.nodup_cons.mp hforms
    have hothers : ∀ other ∈ rest, resolution other = binder.resolve component resolver other
        ((supplied.without (Key.normal spec.name)).group (Key.normal other.name)) := by
      intro other hother
      have hne : Key.normal other.name ≠ Key.normal spec.name := fun h ↦
        hnew (List.mem_map.mpr ⟨other, hother, h⟩)
      rw [Supplied.group_without _ _ _ hne, hrest other hother]
    have hleft : ((supplied.without (Key.normal spec.name)).filter fun group ↦
          group.1 ∉ forms rest) = supplied.filter fun group ↦ group.1 ∉ forms (spec :: rest) := by
      simp [Supplied.without, forms, List.filter_filter, Bool.and_comm]
    simp only [bindOptions, reports, ← hspec, ih _ hdistinct hothers, hleft]
    cases hvalue : (resolution spec).value with
    | error error =>
      have hall :=
        Traversal.mapM_cons_of_error (f := fun spec ↦ (resolution spec).value) hvalue rest
      simp [hall, Except.map]
    | ok value =>
      have hall := Traversal.mapM_cons_of_ok (f := fun spec ↦ (resolution spec).value) hvalue rest
      rw [hall]
      cases rest.mapM fun spec ↦ (resolution spec).value <;> rfl

/-- The options of a schema are resolved from the raw entries that lead to each of them. -/
theorem bindOptions_ofRaw (schema : Schema) (raw : RawValues) :
    binder.bindOptions schema.id resolver (Supplied.ofRaw raw) schema.options =
      ⟨reports (fun spec ↦ binder.resolve schema.id resolver spec (entriesOf raw spec))
          schema.options,
        (schema.options.mapM (binder.resolved schema.id resolver raw)).map fun values ↦
          (values, (Supplied.ofRaw raw).filter fun group ↦ group.1 ∉ forms schema.options)⟩ := by
  refine bindOptions_eq _ _ schema.nodup_forms fun spec _ ↦ ?_
  simp [entriesOf, Supplied.group_ofRaw, Key.agree, beq_eq_decide]

/-- Binding reports what its options report, up to the first that is refused. -/
theorem bind_events (schema : Schema) (raw : RawValues) :
    (binder.bind schema raw resolver).events =
      reports (fun spec ↦ binder.resolve schema.id resolver spec (entriesOf raw spec))
        schema.options := by
  simp only [bind, Logged.map, bindOptions_ofRaw]

/-- The raw keys that lead to no option, in order. -/
def strayKeys (schema : Schema) (raw : RawValues) : List String :=
  ((raw.map (·.1)).filter fun key ↦ LeadsNowhere schema.options key).mergeSort (· ≤ ·)

/-- Binding resolves the options in turn, and then a strict binder refuses the first stray key. -/
theorem bind_value (schema : Schema) (raw : RawValues) :
    (binder.bind schema raw resolver).value =
      (schema.options.mapM (binder.resolved schema.id resolver raw)).bind fun values ↦
        match binder.unknownKeys, strayKeys schema raw with
        | .strict, key :: _ => .error (.unknownOption schema.id key)
        | _, _ => .ok ⟨schema, values⟩ := by
  have hkeys : Supplied.keys ((Supplied.ofRaw raw).filter fun group ↦
      group.1 ∉ forms schema.options) = strayKeys schema raw := by
    refine mergeSort_eq_of_perm ?_
    have hentries := (Supplied.entries_filter_perm raw fun form ↦ form ∉ forms schema.options).map
      (·.1)
    simpa [Supplied.entries, List.map_flatMap, List.filter_map, Function.comp_def,
      leadsNowhere_iff] using hentries
  rw [← hkeys]
  simp only [bind, Logged.map, bindOptions_ofRaw]
  cases schema.options.mapM (binder.resolved schema.id resolver raw) with
  | error error => rfl
  | ok values => rfl

theorem mem_strayKeys {schema : Schema} {raw : RawValues} {key : String} :
    key ∈ strayKeys schema raw ↔ key ∈ raw.map (·.1) ∧ LeadsNowhere schema.options key := by
  simp [strayKeys]

theorem mapM_resolved_eq_ok_iff {schema : Schema} {raw : RawValues}
    {values : List (Option OptionValue)} :
    schema.options.mapM (binder.resolved schema.id resolver raw) = .ok values ↔
      List.Forall₂ (fun spec value ↦
        binder.Resolves schema.id resolver spec (entriesOf raw spec) (.ok value))
        schema.options values := by
  have hone : ∀ spec value, binder.resolved schema.id resolver raw spec = .ok value ↔
      binder.Resolves schema.id resolver spec (entriesOf raw spec) (.ok value) := by
    intro spec value
    rw [resolves_iff, resolved, eq_comm]
  simp only [Traversal.mapM_eq_ok_iff, hone]

/-- The answer of binding is the one that the reference describes, and the only one. -/
theorem bind_value_eq_iff (schema : Schema) (raw : RawValues) (outcome : Except BindError Bound) :
    (binder.bind schema raw resolver).value = outcome ↔
      binder.Binds schema resolver raw outcome := by
  rw [bind_value]
  constructor
  · rintro rfl
    cases hall : schema.options.mapM (binder.resolved schema.id resolver raw) with
    | error error =>
      obtain ⟨before, spec, after, hoptions, hbefore, hspec⟩ :=
        Traversal.mapM_eq_error_iff.mp hall
      refine .refused hoptions (fun earlier hearlier ↦ ?_) (resolves_iff.mpr hspec.symm)
      obtain ⟨value, hvalue⟩ := hbefore earlier hearlier
      exact ⟨value, resolves_iff.mpr hvalue.symm⟩
    | ok values =>
      have hvalues := mapM_resolved_eq_ok_iff.mp hall
      simp only [Except.bind]
      cases hpolicy : binder.unknownKeys with
      | lenient => exact .bound hvalues (.inl hpolicy)
      | strict =>
        cases hstray : strayKeys schema raw with
        | nil =>
          refine .bound hvalues (.inr fun key hkey hnowhere ↦ ?_)
          simpa [hstray] using mem_strayKeys.mpr ⟨hkey, hnowhere⟩
        | cons key rest =>
          have hmem := mem_strayKeys.mp (hstray ▸ List.mem_cons_self : key ∈ strayKeys schema raw)
          refine .unknown hvalues hpolicy hmem.1 hmem.2 fun other hother hnowhere ↦ ?_
          exact (mergeSort_eq_cons hstray).2 other
            (by simpa using ⟨by simpa using hother, hnowhere⟩)
  · intro hbinds
    cases hbinds with
    | @refused before after spec error hoptions hbefore hspec =>
      have hall : schema.options.mapM (binder.resolved schema.id resolver raw) = .error error := by
        refine Traversal.mapM_eq_error_iff.mpr ⟨before, spec, after, hoptions, ?_, ?_⟩
        · intro earlier hearlier
          obtain ⟨value, hvalue⟩ := hbefore earlier hearlier
          exact ⟨value, (resolves_iff.mp hvalue).symm⟩
        · exact (resolves_iff.mp hspec).symm
      simp [hall, Except.bind]
    | @unknown values key hvalues hstrict hkey hnowhere hsmallest =>
      have hmem : key ∈ strayKeys schema raw := mem_strayKeys.mpr ⟨hkey, hnowhere⟩
      cases hstray : strayKeys schema raw with
      | nil => simp [hstray] at hmem
      | cons first rest =>
        have hfirst := mem_strayKeys.mp (hstray ▸ List.mem_cons_self : first ∈ strayKeys schema raw)
        have hle :=
          (mergeSort_eq_cons hstray).2 key (by simpa using ⟨by simpa using hkey, hnowhere⟩)
        have heq : first = key := le_antisymm hle (hsmallest first hfirst.1 hfirst.2)
        simp [mapM_resolved_eq_ok_iff.mpr hvalues, Except.bind, hstrict, heq]
    | @bound values hvalues haccepted =>
      rw [mapM_resolved_eq_ok_iff.mpr hvalues]
      simp only [Except.bind]
      rcases haccepted with hlenient | hnone
      · simp [hlenient]
      · have hstray : strayKeys schema raw = [] := by
          refine List.eq_nil_iff_forall_not_mem.mpr fun key hmem ↦ ?_
          exact hnone key (mem_strayKeys.mp hmem).1 (mem_strayKeys.mp hmem).2
        simp [hstray]

/-! ### Consequences -/

/-- The binder with another policy for keys that lead to no option. -/
def under (binder : Binder) (policy : UnknownKeyPolicy) : Binder :=
  { binder with unknownKeys := policy }

/-- Single options do not see the policy for keys that lead nowhere. -/
theorem resolves_under {policy : UnknownKeyPolicy} {entries : RawValues}
    {outcome : Except BindError (Option OptionValue)} :
    (binder.under policy).Resolves component resolver spec entries outcome ↔
      binder.Resolves component resolver spec entries outcome := by
  rw [resolves_iff, resolves_iff]
  rfl

/-- The raw entries whose keys lead to an option of a schema. -/
def matched (schema : Schema) (raw : RawValues) : RawValues :=
  raw.filter fun entry ↦ ¬ LeadsNowhere schema.options entry.1

/-- What leads to one option leads somewhere. -/
theorem entriesOf_matched {schema : Schema} {spec : OptionSpec} (hspec : spec ∈ schema.options)
    (raw : RawValues) : entriesOf (matched schema raw) spec = entriesOf raw spec := by
  unfold entriesOf matched
  rw [List.filter_filter]
  refine List.filter_congr fun entry _ ↦ ?_
  by_cases hagree : Key.agree entry.1 spec.name = true
  · have hsomewhere : ¬ LeadsNowhere schema.options entry.1 := fun h ↦
      h spec hspec (Key.agree_iff.mp hagree)
    simp [hagree, hsomewhere]
  · simp [hagree]

theorem resolved_perm {raw other : RawValues}
    (hentries : (entriesOf raw spec).Perm (entriesOf other spec)) :
    binder.resolved component resolver raw spec =
      binder.resolved component resolver other spec := by
  rw [resolved, resolved, resolve_perm hentries]

/-- A configuration belongs to the schema that it was bound for. -/
theorem schema_of_bind_eq_ok {schema : Schema} {raw : RawValues} {bound : Bound}
    (hbind : (binder.bind schema raw resolver).value = .ok bound) : bound.schema = schema := by
  cases (bind_value_eq_iff schema raw _).mp hbind
  rfl

/-- The value at a place comes from the option at that place. -/
theorem resolved_of_bind_eq_ok {schema : Schema} {raw : RawValues} {bound : Bound}
    (hbind : (binder.bind schema raw resolver).value = .ok bound) {index : Nat}
    (hspec : schema.options[index]? = some spec) :
    ∃ value, bound.values[index]? = some value ∧
      binder.resolved schema.id resolver raw spec = .ok value := by
  cases (bind_value_eq_iff schema raw _).mp hbind with
  | @bound values hvalues _ =>
    obtain ⟨hindex, rfl⟩ := List.getElem?_eq_some_iff.mp hspec
    have hlength := hvalues.length_eq
    refine ⟨values[index], List.getElem?_eq_getElem _, ?_⟩
    exact (resolves_iff.mp (hvalues.get hindex (hlength ▸ hindex))).symm

/-- Binding answers as the reference says: with the error of the first option at fault, or else with
the smallest key that leads nowhere if the binder is strict, or else with the values of the options
in order. So a strict binding that succeeds is the lenient one, keys that lead nowhere never change
what a lenient binder answers, and the value of an option is the same whatever is given for the
others. -/
theorem bind_reference (binder : Binder) (schema : Schema) (resolver : Resolver) :
    (∀ raw outcome, (binder.bind schema raw resolver).value = outcome ↔
      binder.Binds schema resolver raw outcome) ∧
    (∀ raw bound, ((binder.under .strict).bind schema raw resolver).value = .ok bound →
      ((binder.under .lenient).bind schema raw resolver).value = .ok bound) ∧
    (∀ raw other, (matched schema raw).Perm (matched schema other) →
      ((binder.under .lenient).bind schema raw resolver).value =
        ((binder.under .lenient).bind schema other resolver).value) ∧
    (∀ (raw other : RawValues) (bound bound' : Bound) (index : Nat) (spec : OptionSpec),
      schema.options[index]? = some spec →
      (entriesOf raw spec).Perm (entriesOf other spec) →
      (binder.bind schema raw resolver).value = .ok bound →
      (binder.bind schema other resolver).value = .ok bound' →
      bound.values[index]? = bound'.values[index]?) := by
  refine ⟨fun raw ↦ bind_value_eq_iff schema raw, ?_, ?_, ?_⟩
  · intro raw bound hstrict
    cases (bind_value_eq_iff schema raw _).mp hstrict with
    | bound hvalues _ =>
      simp only [resolves_under] at hvalues
      refine (bind_value_eq_iff schema raw _).mpr (.bound ?_ (.inl rfl))
      simpa only [resolves_under] using hvalues
  · intro raw other hmatched
    have hresolved : ∀ spec ∈ schema.options,
        (binder.under .lenient).resolved schema.id resolver raw spec =
          (binder.under .lenient).resolved schema.id resolver other spec := by
      intro spec hspec
      refine resolved_perm ?_
      rw [← entriesOf_matched hspec raw, ← entriesOf_matched hspec other]
      exact hmatched.filter _
    rw [bind_value, bind_value, Traversal.mapM_congr hresolved]
    rfl
  · intro raw other bound bound' index spec hspec hentries hbind hbind'
    obtain ⟨value, hvalue, hresolved⟩ := resolved_of_bind_eq_ok hbind hspec
    obtain ⟨value', hvalue', hresolved'⟩ := resolved_of_bind_eq_ok hbind' hspec
    rw [resolved_perm hentries, hresolved', Except.ok.injEq] at hresolved
    rw [hvalue, hvalue', hresolved]

/-- A component that reads a text, an integer with a default, and an object filled by its type. -/
def orders : Schema where
  id := "orders"
  options := [{ name := "streamName", kind := .string, required := true },
    { name := "maxResults", kind := .int, fallback := some "5" },
    { name := "client", kind := .object "Client", autowired := true }]
  indexed := by decide +kernel

/-- The text of one option in three settings: alone, beside a key that leads nowhere, and
changed. -/
theorem bind_reference_orders :
    let raw : RawValues := [("stream-name", .text "a")]
    let stray : RawValues := [("region", .text "eu"), ("stream-name", .text "a")]
    let other : RawValues := [("STREAM_NAME", .text "b")]
    let binder : Binder := {}
    let bound (name : String) : Bound := ⟨orders, [some (.string name), some (.int 5), none]⟩
    binder.Binds orders .none stray (.ok (bound "a")) ∧
      ((binder.under .strict).bind orders raw .none).value = .ok (bound "a") ∧
      ((binder.under .lenient).bind orders raw .none).value = .ok (bound "a") ∧
      ((binder.under .lenient).bind orders raw .none).value =
        ((binder.under .lenient).bind orders stray .none).value ∧
      (binder.bind orders other .none).value = .ok (bound "b") ∧
      (bound "a").values[1]? = (bound "b").values[1]? := by
  intro raw stray other binder bound
  obtain ⟨hanswer, hstrict, hmatched, hindependent⟩ := bind_reference binder orders .none
  have hraw : ((binder.under .strict).bind orders raw .none).value = .ok (bound "a") := by
    decide +kernel
  have hother : (binder.bind orders other .none).value = .ok (bound "b") := by decide +kernel
  have hsame : (matched orders raw).Perm (matched orders stray) :=
    List.Perm.of_eq (by decide +kernel)
  refine ⟨(hanswer stray _).mp (by decide +kernel), hraw, hstrict raw _ hraw,
    hmatched raw stray hsame, hother, ?_⟩
  exact hindependent raw other _ _ 1 { name := "maxResults", kind := .int, fallback := some "5" }
    rfl (List.Perm.of_eq (by decide +kernel)) (hstrict raw _ hraw) hother

end Connectors.Binder
