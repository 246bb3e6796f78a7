import Connectors.Proofs.Loader.Merging

/-!
# Configurations as layers

What `Config.fields` writes is a layer with every setting. Put over the defaults it stands as it is
(`Config.overlayFields_defaults`), and it is read as the configuration that was written
(`Config.extract_fields`), part by part (`LoggingConfig.ofDatum?_datum`,
`BindingConfig.ofDatum?_datum`).

Configurations are taken as they can be there (`Config.Proper`): the names of filters and components
are in order, the time limit fits into 64 bits and all numbers of the components are finite.
-/

set_option autoImplicit false
set_option relaxedAutoImplicit false

namespace Connectors

/-! ### Putting fields over fields with the same names -/

namespace Datum

/-- Pairs that are put in order stand as they are over others with the same names if each value
does. -/
theorem overlayFields_ofList {earlier later : List (String × Datum)}
    (hsame : Fields.names earlier = Fields.names later) (hnodup : (Fields.names later).Nodup)
    (hvalues : ∀ field ∈ later, united (Fields.get? field.1 earlier) field.2 = field.2) :
    overlayFields (Fields.ofList earlier) (Fields.ofList later) = Fields.ofList later := by
  have hmem : ∀ {pairs : List (String × Datum)} {name : String},
      name ∈ Fields.names (Fields.ofList pairs) ↔ name ∈ Fields.names pairs := fun {pairs name} ↦ by
    rw [Fields.ofList, Fields.mem_names_putAll]
    simp [Fields.names]
  refine overlayFields_eq_later (Fields.ordered_ofList _) (Fields.ordered_ofList _)
    (fun name hname ↦ hmem.mpr (hsame ▸ hmem.mp hname)) fun field hfield ↦ ?_
  rw [Fields.get?_ofList (hsame ▸ hnodup)]
  exact hvalues field ((Fields.ofList_perm hnodup).mem_iff.mp hfield)

end Datum

/-! ### Constants -/

theorem LogLevel.ofName?_name (level : LogLevel) : ofName? level.name = some level := by
  cases level <;> rfl

theorem LogFormat.ofName?_name (format : LogFormat) : ofName? format.name = some format := by
  cases format <;> rfl

theorem LogOutput.ofName?_name (output : LogOutput) : ofName? output.name = some output := by
  cases output <;> rfl

theorem LogRotation.ofName?_name (rotation : LogRotation) :
    ofName? rotation.name = some rotation := by
  cases rotation <;> rfl

theorem UnknownKeyPolicy.ofName?_name (policy : UnknownKeyPolicy) :
    ofName? policy.name = some policy := by
  cases policy <;> rfl

/-! ### The parts of a configuration -/

/-- A part of a written record is found under its name. -/
theorem Datum.part?_ofList {α : Type} {members : List (String × Datum)}
    (hnames : (Fields.names members).Nodup) (position : Nat) (name : String) (absent : α)
    (read : Datum → Option α) :
    (Datum.table (Fields.ofList members)).part? position name absent read =
      (Fields.get? name members).elim (some absent) read := by
  simp only [part?, Fields.get?_ofList hnames]
  cases Fields.get? name members <;> rfl

namespace LoggingConfig

variable (logging : LoggingConfig)

/-- The settings that are written, before they are put in order. -/
def members : List (String × Datum) :=
  [("level", .text logging.level.name), ("format", .text logging.format.name),
    ("output", .text logging.output.name), ("file_path", .ofText? logging.filePath),
    ("rotation", .text logging.rotation.name),
    ("filters", .table (logging.filters.map fun (target, level) ↦ (target, .text level.name))),
    ("thread_ids", .bool logging.threadIds), ("file_location", .bool logging.fileLocation)]

theorem datum_eq : logging.datum = .table (Fields.ofList logging.members) := rfl

theorem names_members : Fields.names logging.members =
    ["level", "format", "output", "file_path", "rotation", "filters", "thread_ids",
      "file_location"] :=
  rfl

theorem nodup_names_members : (Fields.names logging.members).Nodup := by
  rw [names_members]
  decide

theorem filtersOf?_written (usage : Usage) (filters : Fields LogLevel) :
    filtersOf? usage (.table (filters.map fun (target, level) ↦ (target, .text level.name))) =
      some filters := by
  rw [filtersOf?]
  induction filters with
  | nil => rfl
  | cons filter rest ih =>
    obtain ⟨target, level⟩ := filter
    rw [List.map_cons, List.mapM_cons, ih]
    simp [Datum.constant?, LogLevel.ofName?_name]

/-- Logging settings are read as they were written. -/
theorem ofDatum?_datum (usage : Usage) : ofDatum? usage logging.datum = some logging := by
  have hpart : ∀ {α : Type} (position : Nat) (name : String) (absent : α) (read : Datum → Option α),
      logging.datum.part? position name absent read =
        (Fields.get? name logging.members).elim (some absent) read :=
    Datum.part?_ofList logging.nodup_names_members
  have hpath : Datum.text? (.ofText? logging.filePath) = some logging.filePath := by
    cases logging.filePath <;> rfl
  have hrecord : logging.datum.isRecord usage 8 = true := rfl
  simp only [ofDatum?, hrecord, hpart, members, Fields.get?, Option.elim_some, Datum.constant?,
    LogLevel.ofName?_name, LogFormat.ofName?_name, LogOutput.ofName?_name, LogRotation.ofName?_name,
    filtersOf?_written, hpath, Datum.bool?, String.reduceEq, ↓reduceIte]
  rfl

theorem isLeaf_of_mem_members {field : String × Datum} (hfield : field ∈ logging.members)
    (hname : field.1 ≠ "filters") : field.2.IsLeaf := by
  simp only [members, List.mem_cons, List.not_mem_nil, or_false] at hfield
  rcases hfield with rfl | rfl | rfl | rfl | rfl | rfl | rfl | rfl
  case inr.inr.inr.inl => cases logging.filePath <;> simp [Datum.IsLeaf, Datum.ofText?]
  case inr.inr.inr.inr.inr.inl => exact absurd rfl hname
  all_goals simp [Datum.IsLeaf]

/-- Over the defaults logging settings stand as they are. -/
theorem overlay_datum (hfilters : Fields.Ordered logging.filters) :
    (datum {}).overlay logging.datum = logging.datum := by
  rw [datum_eq, datum_eq, Datum.overlay]
  refine congrArg Datum.table (Datum.overlayFields_ofList
    ((names_members _).trans (names_members _).symm) logging.nodup_names_members
    fun field hfield ↦ ?_)
  by_cases hname : field.1 = "filters"
  · obtain ⟨name, value⟩ := field
    subst hname
    have hget := (Fields.get?_eq_some_iff logging.nodup_names_members).mpr hfield
    obtain rfl := Option.some.inj hget
    exact congrArg Datum.table (Datum.overlayFields_nil (List.pairwise_map.mpr hfilters))
  · exact Datum.united_of_isLeaf (logging.isLeaf_of_mem_members hfield hname) _

end LoggingConfig

namespace BindingConfig

variable (binding : BindingConfig)

/-- The settings that are written, before they are put in order. -/
def members : List (String × Datum) :=
  [("unknown_keys", .text binding.unknownKeys.name), ("autowire", .bool binding.autowire),
    ("activation_timeout_ms", binding.activationTimeout.elim .null fun millis ↦ .int millis)]

theorem datum_eq : binding.datum = .table (Fields.ofList binding.members) := rfl

theorem names_members : Fields.names binding.members =
    ["unknown_keys", "autowire", "activation_timeout_ms"] :=
  rfl

theorem nodup_names_members : (Fields.names binding.members).Nodup := by
  rw [names_members]
  decide

/-- Binding settings are read as they were written, if the time limit fits. -/
theorem ofDatum?_datum
    (hlimit : ∀ limit ∈ binding.activationTimeout, Integer.unsigned64.holds limit) (usage : Usage) :
    ofDatum? usage binding.datum = some binding := by
  have hpart : ∀ {α : Type} (position : Nat) (name : String) (absent : α) (read : Datum → Option α),
      binding.datum.part? position name absent read =
        (Fields.get? name binding.members).elim (some absent) read :=
    Datum.part?_ofList binding.nodup_names_members
  have hword : Datum.word? (binding.activationTimeout.elim .null fun millis ↦ .int millis) =
      some binding.activationTimeout := by
    cases htimeout : binding.activationTimeout with
    | none => rfl
    | some limit => simp [Datum.word?, hlimit limit htimeout]
  have hrecord : binding.datum.isRecord usage 3 = true := rfl
  simp only [ofDatum?, hrecord, hpart, members, Fields.get?, Option.elim_some, Datum.constant?,
    UnknownKeyPolicy.ofName?_name, hword, Datum.bool?, String.reduceEq, ↓reduceIte]
  rfl

/-- Over the defaults binding settings stand as they are. -/
theorem overlay_datum : (datum {}).overlay binding.datum = binding.datum := by
  rw [datum_eq, datum_eq, Datum.overlay]
  refine congrArg Datum.table (Datum.overlayFields_ofList
    ((names_members _).trans (names_members _).symm) binding.nodup_names_members
    fun field hfield ↦ Datum.united_of_isLeaf ?_ _)
  simp only [members, List.mem_cons, List.not_mem_nil, or_false] at hfield
  rcases hfield with rfl | rfl | rfl
  · simp [Datum.IsLeaf]
  · simp [Datum.IsLeaf]
  · cases binding.activationTimeout <;> simp [Datum.IsLeaf]

end BindingConfig

/-! ### Whole configurations -/

namespace Config

/-- A configuration as it can be there. -/
structure Proper (config : Config) : Prop where
  /-- The targets of the filters are in order. -/
  filters : Fields.Ordered config.logging.filters
  /-- The time limit has 64 bits. -/
  limit : ∀ limit ∈ config.binding.activationTimeout, Integer.unsigned64.holds limit
  /-- The ids of the components are in order. -/
  ordered : Fields.Ordered config.components
  /-- The numbers in the components are finite. -/
  finite : Datum.settledFields config.components = config.components

instance (config : Config) : Decidable config.Proper :=
  decidable_of_iff
    (Fields.Ordered config.logging.filters ∧
      (∀ limit ∈ config.binding.activationTimeout, Integer.unsigned64.holds limit) ∧
      Fields.Ordered config.components ∧ Datum.settledFields config.components = config.components)
    ⟨fun ⟨filters, limit, ordered, finite⟩ ↦ ⟨filters, limit, ordered, finite⟩,
      fun ⟨filters, limit, ordered, finite⟩ ↦ ⟨filters, limit, ordered, finite⟩⟩

variable {config : Config}

/-- The parts that are written, before they are put in order. -/
def members (config : Config) : List (String × Datum) :=
  [("logging", config.logging.datum), ("binding", config.binding.datum),
    ("components", .table config.components)]

theorem fields_eq (config : Config) : config.fields = Fields.ofList config.members := rfl

theorem names_members (config : Config) :
    Fields.names config.members = ["logging", "binding", "components"] :=
  rfl

theorem nodup_names_members (config : Config) : (Fields.names config.members).Nodup := by
  rw [names_members]
  decide

/-- A configuration is written anew with other components. -/
theorem put_components (config : Config) (components : List (String × Datum)) :
    Fields.put componentsKey (.table components) config.fields =
      Config.fields { config with components := components } :=
  Fields.put_put ..

/-- Over the defaults a configuration stands as it is. -/
theorem overlayFields_defaults (hproper : config.Proper) :
    Datum.overlayFields (fields {}) config.fields = config.fields := by
  rw [fields_eq, fields_eq]
  refine Datum.overlayFields_ofList ((names_members _).trans (names_members _).symm)
    config.nodup_names_members fun field hfield ↦ ?_
  simp only [members, List.mem_cons, List.not_mem_nil, or_false] at hfield
  rcases hfield with rfl | rfl | rfl
  · exact LoggingConfig.overlay_datum _ hproper.filters
  · exact BindingConfig.overlay_datum _
  · exact congrArg Datum.table (Datum.overlayFields_nil hproper.ordered)

/-- A configuration is read as it was written. -/
theorem extract_fields (hproper : config.Proper) :
    Loader.extract (.ok config.fields) = .ok config := by
  have hpart : ∀ {α : Type} (position : Nat) (name : String) (absent : α) (read : Datum → Option α),
      (Datum.table config.fields).part? position name absent read =
        (Fields.get? name config.members).elim (some absent) read :=
    Datum.part?_ofList config.nodup_names_members
  rw [Layer.extract_eq_ok_iff, hpart, hpart, hpart]
  refine ⟨config.logging.ofDatum?_datum .partly,
    config.binding.ofDatum?_datum hproper.limit .partly, ?_⟩
  exact congrArg some hproper.finite

end Config

end Connectors
