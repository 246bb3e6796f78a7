import Connectors.Proofs.Sections.OneComponent

/-!
# Configurations that can be read

Whether the sections of a configuration can be read is settled by each of their entries for itself
(`ComponentSection.Readable`): a table of entries is a section exactly when all of them are
readable, and a configuration has sections exactly when their ids are not blank and name different
components and each section can be read (`ComponentSection.exists_readAll_iff`). So it makes sense
to ask whether a configuration is valid but for what it says about one option (`Config.without`).
-/

set_option autoImplicit false
set_option relaxedAutoImplicit false

namespace Connectors

open Spelling

namespace ComponentSection

/-- An entry of a section that can be read: a position under the key of the switch, and settings
under any other key. -/
def Readable (entry : String × Datum) : Prop :=
  if entry.1 = switchKey then ∃ enabled, switch entry.2 = .ok enabled
  else ∃ settings, flatten entry.1 entry.2 = .ok settings

theorem readable_text {key : String} (hkey : key ≠ switchKey) (text : String) :
    Readable (key, .text text) := by
  rw [Readable, if_neg hkey]
  exact ⟨[(key, text)], by simp [flatten, scalarText?]⟩

theorem exists_read_iff {enabled : Bool} {values : Fields String}
    {entries : List (String × Datum)} :
    (∃ answer, read enabled values entries = .ok answer) ↔ ∀ entry ∈ entries, Readable entry := by
  induction entries generalizing enabled values with
  | nil => simp [read]
  | cons entry rest ih =>
    obtain ⟨key, value⟩ := entry
    rw [List.forall_mem_cons, Readable, read]
    by_cases hkey : key = switchKey
    · rw [if_pos hkey, if_pos hkey]
      cases hswitch : switch value with
      | error fault => simp
      | ok position => simpa using ih
    · rw [if_neg hkey, if_neg hkey]
      cases hflatten : flatten key value with
      | error fault => simp
      | ok settings => simpa using ih

/-- A table is a section exactly when all its entries are readable. -/
theorem exists_ofDatum_iff {id : String} {entries : List (String × Datum)} :
    (∃ component, ofDatum id (.table entries) = .ok component) ↔
      ∀ entry ∈ entries, Readable entry := by
  have hread : (∃ answer, read true [] entries = .ok answer) ↔ ∀ entry ∈ entries, Readable entry :=
    exists_read_iff
  rw [← hread, ofDatum]
  cases read true [] entries with
  | error fault => simp
  | ok answer => simp

theorem exists_readAll_iff {sections : List (String × Datum)} :
    (∃ components, readAll [] sections = .ok components) ↔
      Once sections ∧ ∀ given ∈ sections, (Text.trim given.1).isEmpty = false ∧
        ∃ component, ofDatum given.1 given.2 = .ok component := by
  have hcomponents : (∃ components, List.Forall₂ (fun (given : String × Datum) component ↦
      ofDatum given.1 given.2 = .ok component) sections components) ↔
      ∀ given ∈ sections, ∃ component, ofDatum given.1 given.2 = .ok component := by
    induction sections with
    | nil => simp
    | cons first rest ih =>
      rw [List.forall_mem_cons, ← ih]
      simp only [List.forall₂_cons_left_iff]
      constructor
      · rintro ⟨_, component, components, hfirst, hrest, -⟩
        exact ⟨⟨component, hfirst⟩, components, hrest⟩
      · rintro ⟨⟨component, hfirst⟩, components, hrest⟩
        exact ⟨_, component, components, hfirst, hrest, rfl⟩
  simp only [readAll_eq_ok_iff, exists_and_left, hcomponents, List.lookup_nil, and_true,
    forall₂_and]
  tauto

end ComponentSection

/-! ### All but one option -/

/-- A section without what it holds for an option. -/
def Datum.without (key : String) : Datum → Datum
  | .table entries => .table (entries.filter fun entry ↦ !Key.agree entry.1 key)
  | value => value

namespace Config

open ComponentSection

variable {config : Config} {id key : String}

/-- A configuration without what it holds for an option of a component. -/
def without (id key : String) (config : Config) : Config :=
  { config with
    components := config.components.map fun (name, value) ↦
      (name, if Key.agree name id then value.without key else value) }

theorem validate_eq_ok_iff : config.validate = .ok () ↔ validateLogging config.logging = .ok () ∧
    validateBinding config.binding = .ok () ∧ ∃ components, config.sections = .ok components := by
  rw [validate]
  cases validateLogging config.logging with
  | error error => simp [bind, Except.bind]
  | ok _ =>
    cases validateBinding config.binding with
    | error error => simp [bind, Except.bind]
    | ok _ => cases config.sections <;> simp [bind, Except.bind, pure, Except.pure]

/-- What is left of a configuration that is valid but for one option. -/
structure ValidBut (id key : String) (config : Config) : Prop where
  /-- The logging settings are valid. -/
  logging : validateLogging config.logging = .ok ()
  /-- The binding settings are valid. -/
  binding : validateBinding config.binding = .ok ()
  /-- No two sections are for one component. -/
  once : Once config.components
  /-- No id is blank. -/
  ids : ∀ given ∈ config.components, (Text.trim given.1).isEmpty = false
  /-- The sections of other components can be read. -/
  others : ∀ given ∈ config.components, Key.normal given.1 ≠ Key.normal id →
    ∃ component, ofDatum given.1 given.2 = .ok component
  /-- The other entries of the component's section can be read. -/
  entries : ∀ name fields, (name, .table fields) ∈ config.components →
    Key.normal name = Key.normal id → ∀ entry ∈ fields, Key.normal entry.1 ≠ Key.normal key →
      Readable entry

theorem validBut_of_without (hvalid : (config.without id key).validate = .ok ()) :
    config.ValidBut id key := by
  obtain ⟨hlogging, hbinding, hsections⟩ := validate_eq_ok_iff.mp hvalid
  obtain ⟨honce, hread⟩ := exists_readAll_iff.mp hsections
  have hforms : (config.without id key).components.map (fun given ↦ Key.normal given.1) =
      config.components.map fun given ↦ Key.normal given.1 := by
    rw [without, List.map_map]
    rfl
  have hgiven : ∀ given ∈ config.components, (Text.trim given.1).isEmpty = false ∧
      ∃ component, ofDatum given.1
        (if Key.agree given.1 id then given.2.without key else given.2) = .ok component :=
    fun given hmem ↦ hread _ (List.mem_map.mpr ⟨given, hmem, rfl⟩)
  refine ⟨hlogging, hbinding, ?_, fun given hmem ↦ (hgiven given hmem).1,
    fun given hmem hname ↦ ?_, fun name fields hmem hname entry hentry hkey ↦ ?_⟩
  · rw [Once, ← hforms]
    exact honce
  · have hother : Key.agree given.1 id = false := by simpa [Key.agree] using hname
    simpa [hother] using (hgiven given hmem).2
  · have hagree : Key.agree name id = true := Key.agree_iff.mpr hname
    have htable := (hgiven _ hmem).2
    simp only [hagree, if_true, Datum.without, exists_ofDatum_iff] at htable
    exact htable entry (List.mem_filter.mpr ⟨hentry, by simpa [Key.agree] using hkey⟩)

end Config

end Connectors
