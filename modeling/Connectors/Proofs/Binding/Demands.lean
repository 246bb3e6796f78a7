import Connectors.Proofs.Binding.Reading

/-!
# What settings demand of a configuration

The settings of a connector are read from a configuration that is bound already. Such a
configuration holds under each name a value of the kind declared or nothing, and nothing only where
there is no default (`Bound.Obeys`, `Binder.obeys_of_bind`), whatever the resolver: only objects
come from there. So a reader of the right kind finds a value exactly if there is one, and a constant
is always one of those declared.

What is left to refuse are options that are not set although others call for them. A reader that
looks for some options in turn, and reports the first it does not find as missing, is described by
the list of these options (`Bound.Checks`). Readers that are run one after another look for the
options of each in turn (`Bound.Checks.bind`).
-/

set_option autoImplicit false
set_option relaxedAutoImplicit false

namespace Connectors

/-! ### Values of the kinds declared -/

namespace Binder

variable {binder : Binder} {schema : Schema} {component : String} {resolver : Resolver}
  {raw : RawValues} {spec : OptionSpec} {config : Bound}

/-- An option that holds no object is not filled by type, so its value originates from a text. -/
theorem Resolves.origin_of_scalar (hscalar : spec.kind.isScalar = true) {entries : RawValues}
    {value : OptionValue}
    (hresolves : binder.Resolves component resolver spec entries (.ok (some value))) :
    Originates spec value := by
  rcases hresolves.of_some with ⟨text, hread⟩ | ⟨_, -, -, -, typeName, hkind, -⟩ |
    ⟨_, _, -, hcoerces⟩
  · exact hread.origin
  · simp [hkind, OptionKind.isScalar] at hscalar
  · exact hcoerces.origin

/-- What an option that holds no object gets fills its place. -/
theorem Resolves.fills_of_scalar (hscalar : spec.kind.isScalar = true) {entries : RawValues}
    {slot : Option OptionValue}
    (hresolves : binder.Resolves component resolver spec entries (.ok slot)) : Fills spec slot := by
  cases slot with
  | none =>
    obtain ⟨-, hfallback, hrequired⟩ := hresolves.of_none
    exact ⟨by simp, by simp, by simp [hrequired], by simp [hfallback]⟩
  | some value =>
    obtain ⟨hfits, hrange⟩ := (hresolves.origin_of_scalar hscalar).fits
    exact ⟨by simpa using hfits, by simpa using hrange, fun _ ↦ rfl, fun _ ↦ rfl⟩

end Binder

/-- An option of a schema has a name, in the spelling of the schema, and a kind. -/
def Schema.Declares (schema : Schema) (key : String) (kind : OptionKind) : Prop :=
  ∃ spec ∈ schema.options, spec.name = key ∧ spec.kind = kind

instance (schema : Schema) (key : String) (kind : OptionKind) :
    Decidable (schema.Declares key kind) :=
  inferInstanceAs (Decidable (∃ spec ∈ schema.options, spec.name = key ∧ spec.kind = kind))

/-- An option of a schema has a name, a kind and a default. -/
def Schema.Defaults (schema : Schema) (key : String) (kind : OptionKind) : Prop :=
  ∃ spec ∈ schema.options, spec.name = key ∧ spec.kind = kind ∧ spec.fallback.isSome = true

instance (schema : Schema) (key : String) (kind : OptionKind) :
    Decidable (schema.Defaults key kind) :=
  inferInstanceAs (Decidable
    (∃ spec ∈ schema.options, spec.name = key ∧ spec.kind = kind ∧ spec.fallback.isSome = true))

theorem Schema.Defaults.declares {schema : Schema} {key : String} {kind : OptionKind}
    (hdefaults : schema.Defaults key kind) : schema.Declares key kind := by
  obtain ⟨spec, hspec, hname, hkind, -⟩ := hdefaults
  exact ⟨spec, hspec, hname, hkind⟩

namespace Bound

/-- A configuration belongs to a schema, and what is read under the name of an option fills its
place, unless the option holds an object. -/
structure Obeys (config : Bound) (schema : Schema) : Prop where
  /-- The values belong to the schema. -/
  schema_eq : config.schema = schema
  /-- The places of options that hold no object are filled. -/
  fills : ∀ spec ∈ schema.options, spec.kind.isScalar = true →
    Binder.Fills spec (config.get? spec.name)

end Bound

/-- A configuration that is bound obeys its schema. -/
theorem Binder.obeys_of_bind {binder : Binder} {schema : Schema} {raw : RawValues}
    {resolver : Resolver} {config : Bound}
    (hbind : (binder.bind schema raw resolver).value = .ok config) : config.Obeys schema := by
  obtain rfl := schema_of_bind_eq_ok hbind
  refine ⟨rfl, fun spec hspec hscalar ↦ ?_⟩
  obtain ⟨index, hindex⟩ := List.mem_iff_getElem?.mp hspec
  obtain ⟨slot, hslot, hresolved⟩ := resolved_of_bind_eq_ok hbind hindex
  rw [Bound.get?_of_leads ⟨hindex, rfl⟩, hslot]
  exact (resolves_iff.mpr hresolved.symm).fills_of_scalar hscalar

namespace Bound

section Kinds

variable {config : Bound} {schema : Schema} {key : String} {kind : OptionKind}

/-- A value is found by the reader of the kind that is declared. -/
theorem Obeys.reads (hobeys : config.Obeys schema)
    (hkind : schema.Declares key kind) (hscalar : kind.isScalar = true)
    {value : OptionValue} (hget : config.get? key = some value) : config.Reads key kind value := by
  obtain ⟨spec, hspec, rfl, rfl⟩ := hkind
  exact reads_of_get? hget ((hobeys.fills spec hspec hscalar).fits value hget)

/-- An option with a default is set. -/
theorem Obeys.contains_of_default (hobeys : config.Obeys schema)
    (hdefaults : schema.Defaults key kind) (hscalar : kind.isScalar = true) :
    config.contains key = true := by
  obtain ⟨spec, hspec, rfl, rfl, hfallback⟩ := hdefaults
  exact (hobeys.fills spec hspec hscalar).fallback hfallback

/-- A text is found exactly if the option is set. -/
theorem Obeys.isSome_string? (hobeys : config.Obeys schema)
    (hkind : schema.Declares key .string) :
    (config.string? key).isSome = config.contains key := by
  cases hget : config.get? key with
  | none => simp [string?, contains, hget]
  | some value =>
    cases hobeys.reads hkind rfl hget with
    | string hread => simp [hread, contains, hget]

/-- An integer of 32 bits is found exactly if the option is set. -/
theorem Obeys.isSome_int? (hobeys : config.Obeys schema)
    (hkind : schema.Declares key .int) :
    (config.int? key).isSome = config.contains key := by
  cases hget : config.get? key with
  | none => simp [int?, contains, hget]
  | some value =>
    cases hobeys.reads hkind rfl hget with
    | int hread => simp [hread, contains, hget]

/-- An integer of 32 bits that has a default is found. -/
theorem Obeys.exists_int? (hobeys : config.Obeys schema) (hdefaults : schema.Defaults key .int) :
    ∃ value, config.int? key = some value := by
  rw [← Option.isSome_iff_exists, hobeys.isSome_int? hdefaults.declares]
  exact hobeys.contains_of_default hdefaults rfl

/-- An integer of 64 bits that has a default is found. -/
theorem Obeys.exists_long? (hobeys : config.Obeys schema) (hdefaults : schema.Defaults key .long) :
    ∃ value, config.long? key = some value := by
  obtain ⟨value, hget⟩ := Option.isSome_iff_exists.mp (hobeys.contains_of_default hdefaults rfl)
  cases hobeys.reads hdefaults.declares rfl hget with
  | long hread => exact ⟨_, hread⟩

/-- A constant is one of those declared. -/
theorem Obeys.mem_of_enum? (hobeys : config.Obeys schema) {allowed : List String}
    (hkind : schema.Declares key (.enum allowed)) {constant : String}
    (hread : config.enum? key = some constant) : constant ∈ allowed := by
  obtain ⟨spec, hspec, rfl, hallowed⟩ := hkind
  have hget : config.get? spec.name = some (.enum constant) := by
    unfold enum? at hread
    split at hread
    · next held hheld => rw [hheld, Option.some.inj hread]
    · cases hread
  have hfits := (hobeys.fills spec hspec (by rw [hallowed]; rfl)).fits _ hget
  rw [hallowed] at hfits
  simpa [OptionValue.fits] using hfits

/-- A constant is read without an error by whatever reads all that are declared. -/
theorem Obeys.parseEnum_eq (hobeys : config.Obeys schema) (allowed : List String)
    (hkind : schema.Declares key (.enum allowed)) {α : Type}
    {read : String → Option α} (hread : ∀ constant ∈ allowed, (read constant).isSome = true) :
    config.parseEnum read key = .ok ((config.enum? key).bind read) := by
  unfold parseEnum
  cases hconstant : config.enum? key with
  | none => rfl
  | some constant =>
    obtain ⟨value, hvalue⟩ :=
      Option.isSome_iff_exists.mp (hread constant (hobeys.mem_of_enum? hkind hconstant))
    simp [hvalue]

theorem Obeys.parseEnum_bind (hobeys : config.Obeys schema) (allowed : List String)
    (hkind : schema.Declares key (.enum allowed)) {α β : Type}
    {read : String → Option α} (hread : ∀ constant ∈ allowed, (read constant).isSome = true)
    (next : Option α → Except BindError β) :
    config.parseEnum read key >>= next = next ((config.enum? key).bind read) := by
  rw [hobeys.parseEnum_eq allowed hkind hread]
  rfl

end Kinds

/-! ### Options that have to be set -/

section Checks

variable {α β : Type} {config : Bound} {demanded others : List String} {option : String}

/-- The first of some options that is not set. -/
def lacking? (config : Bound) (demanded : List String) : Option String :=
  demanded.find? fun option ↦ !config.contains option

/-- The outcome of looking for some options in turn: a value if all of them are set, and otherwise
the error that the first one is missing. -/
inductive Checks (config : Bound) (demanded : List String) : Except BindError α → Prop
  | complete {value : α} (hlacking : config.lacking? demanded = none) :
      Checks config demanded (.ok value)
  | missing {option : String} (hlacking : config.lacking? demanded = some option) :
      Checks config demanded (.error (config.missing option))

theorem lacking?_append (config : Bound) (demanded others : List String) :
    config.lacking? (demanded ++ others) = (config.lacking? demanded).or (config.lacking? others) :=
  List.find?_append

theorem lacking?_eq_none_iff :
    config.lacking? demanded = none ↔ ∀ option ∈ demanded, config.contains option = true := by
  simp [lacking?]

theorem Checks.exists_ok_iff {outcome : Except BindError α}
    (hchecks : config.Checks demanded outcome) :
    (∃ value, outcome = .ok value) ↔ ∀ option ∈ demanded, config.contains option = true := by
  rw [← lacking?_eq_none_iff]
  cases hchecks with
  | complete hlacking => simp [hlacking]
  | missing hlacking => simp [hlacking]

theorem Checks.eq_error_iff {outcome : Except BindError α}
    (hchecks : config.Checks demanded outcome) {error : BindError} : outcome = .error error ↔
      ∃ option, config.lacking? demanded = some option ∧ error = config.missing option := by
  cases hchecks with
  | complete hlacking => simp [hlacking]
  | missing hlacking => simp [hlacking, eq_comm]

/-- A value that is there in any case demands nothing. -/
theorem checks_nil (value : α) : config.Checks [] (.ok value : Except BindError α) :=
  .complete rfl

/-- Options that are all set may be demanded first. -/
theorem Checks.after {outcome : Except BindError α} (hchecks : config.Checks others outcome)
    (hset : config.lacking? demanded = none) : config.Checks (demanded ++ others) outcome := by
  have hothers : config.lacking? (demanded ++ others) = config.lacking? others := by
    rw [lacking?_append, hset, Option.none_or]
  cases hchecks with
  | complete hlacking => exact .complete (hothers.trans hlacking)
  | missing hlacking => exact .missing (hothers.trans hlacking)

/-- Whatever comes after a check demands its options after those of the check. -/
theorem Checks.bind {first : Except BindError α} {next : α → Except BindError β}
    (hfirst : config.Checks demanded first)
    (hnext : ∀ value, first = .ok value → config.Checks others (next value)) :
    config.Checks (demanded ++ others) (first >>= next) := by
  cases hfirst with
  | complete hset => exact (hnext _ rfl).after hset
  | missing hlacking => exact .missing (by rw [lacking?_append, hlacking, Option.some_or])

/-- What is made of a value demands nothing more. -/
theorem Checks.map {outcome : Except BindError α} (hchecks : config.Checks demanded outcome)
    (make : α → β) : config.Checks demanded (outcome.map make) := by
  cases hchecks with
  | complete hlacking => exact .complete hlacking
  | missing hlacking => exact .missing hlacking

/-- An outcome that is an error unless an option is found demands this option first. -/
theorem checks_cons {γ : Type} {found : Option γ} (hfound : found.isSome = config.contains option)
    {outcome : Except BindError α} (hnone : found = none → outcome = .error (config.missing option))
    (hsome : ∀ value, found = some value → config.Checks others outcome) :
    config.Checks (option :: others) outcome := by
  cases found with
  | none =>
    rw [hnone rfl]
    exact .missing (by simp [lacking?, ← hfound])
  | some value =>
    have hset : config.lacking? [option] = none := by simp [lacking?, ← hfound]
    exact (hsome value rfl).after hset

/-- A guard refuses a configuration that calls for an option and does not set it. -/
theorem checks_guard {γ : Type} {calls demands : Prop} [Decidable calls] [Decidable demands]
    (hcalls : calls ↔ demands) {found : Option γ} (hfound : found.isSome = config.contains option)
    {next : PUnit → Except BindError α} (hnext : config.Checks others (next ())) :
    config.Checks ((if demands then [option] else []) ++ others)
      (if calls ∧ found.isNone = true then
        (Except.error (config.missing option) : Except BindError PUnit) >>= next
      else next ()) := by
  by_cases hdemands : demands
  · rw [if_pos hdemands]
    refine checks_cons hfound (fun hnone ↦ ?_) fun value hsome ↦ ?_
    · rw [if_pos ⟨hcalls.mpr hdemands, by rw [hnone]; rfl⟩]
      rfl
    · rwa [if_neg (by simp [hsome])]
  · rwa [if_neg hdemands, if_neg fun h ↦ hdemands (hcalls.mp h.1)]

/-- What is read without an error was found. -/
theorem eq_some_of_elim {γ : Type} {found : Option γ} {value : γ} {error : BindError}
    (hread : found.elim (.error error) Except.ok = .ok value) : found = some value := by
  cases found with
  | none => cases hread
  | some held => exact congrArg some (Except.ok.inj hread)

/-- A text that is asked for has to be set. -/
theorem Obeys.checks_string {schema : Schema} (hobeys : config.Obeys schema)
    (hkind : schema.Declares option .string) :
    config.Checks [option] ((config.string? option).elim (.error (config.missing option)) .ok) := by
  refine checks_cons (hobeys.isSome_string? hkind) (fun hnone ↦ by rw [hnone]; rfl)
    fun text htext ↦ ?_
  rw [htext]
  exact checks_nil text

end Checks

end Bound

end Connectors
