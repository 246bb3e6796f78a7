import Connectors.Proofs.Sections.Flattening
import Connectors.Proofs.Sections.OneOption
import Connectors.Proofs.Sections.Reading

/-!
# Reading the section of one component

All sections are read exactly when their ids name different components and each can be read for
itself (`ComponentSection.readAll_eq_ok_iff`). So a component whose section is found in a
configuration has one section to bind, which is read from that table (`Config.exists_component`).
Its switch has the position that stands under the very key `enabled`, and is on without one
(`ComponentSection.switch_of_ofDatum`); an option that stands under one key of a table without
tables is bound from the text there (`ComponentSection.entriesOf_of_clear`) and is never in conflict
(`ComponentSection.bind_ne_conflicting_of_clear`).
-/

set_option autoImplicit false
set_option relaxedAutoImplicit false

namespace Connectors

open Spelling

/-! ### Numbers that are not finite -/

namespace Relaxed

variable {id key : String} {sections : List (String × Datum)}

theorem find?_settledFields (name : String) (fields : List (String × Datum)) :
    find? name (Datum.settledFields fields) =
      (find? name fields).map fun field ↦ (field.1, field.2.settled) := by
  rw [settledFields_eq]
  exact find?_map fun _ (value : Datum) ↦ value.settled

theorem ordered_settledFields {fields : List (String × Datum)} (hordered : Fields.Ordered fields) :
    Fields.Ordered (Datum.settledFields fields) := by
  rw [settledFields_eq]
  exact List.pairwise_map.mpr hordered

theorem onceFor_settledFields {fields : List (String × Datum)} (honce : OnceFor key fields) :
    OnceFor key (Datum.settledFields fields) := by
  rw [settledFields_eq]
  intro first hfirst second hsecond hone htwo
  obtain ⟨given, hgiven, rfl⟩ := List.mem_map.mp hfirst
  obtain ⟨other, hother, rfl⟩ := List.mem_map.mp hsecond
  exact honce given hgiven other hother hone htwo

theorem ClearTable.settled {entries : List (String × Datum)} (hclear : ClearTable key entries) :
    ClearTable key (Datum.settledFields entries) := by
  refine ⟨ordered_settledFields hclear.ordered, fun entry hentry ↦ ?_,
    onceFor_settledFields hclear.once⟩
  rw [settledFields_eq] at hentry
  obtain ⟨given, hgiven, rfl⟩ := List.mem_map.mp hentry
  exact isLeaf_settled (hclear.leaf given hgiven)

/-- What is found in clear sections when numbers that are not finite are taken for no values. -/
theorem Clear.find?_settled (hclear : Clear id key sections) {field : String × Datum}
    (hsetting : setting? id key sections = some field) : ∃ spelling entries,
      find? id (Datum.settledFields sections) = some (spelling, .table entries) ∧
        ClearTable key entries ∧ find? key entries = some (field.1, field.2.settled) := by
  cases hfind : find? id sections with
  | none => simp [setting?, hfind, within] at hsetting
  | some given =>
    obtain ⟨spelling, value⟩ := given
    obtain ⟨entries, hvalue, htable⟩ := hclear.section_of_find? hfind
    obtain rfl : value = .table entries := hvalue
    rw [setting?, hfind, within_of_clearTable htable] at hsetting
    refine ⟨spelling, Datum.settledFields entries, ?_, htable.settled, ?_⟩
    · rw [find?_settledFields, hfind]
      simp [Datum.settled]
    · rw [find?_settledFields, hsetting]
      rfl

end Relaxed

/-! ### Conflicts -/

/-- The option that is in conflict is the one that was to be resolved. -/
theorem Binder.Resolves.name_of_conflicting {binder : Binder} {component owner option : String}
    {resolver : Resolver} {spec : OptionSpec} {entries : RawValues} {keys : List String}
    (hresolves : binder.Resolves component resolver spec entries
      (.error (.conflictingKeys owner option keys))) : option = spec.name := by
  rcases hresolves.of_error with
    ⟨text, hread⟩ | hmissing | ⟨key, raw, -, hcoerces⟩ | ⟨-, others, heq⟩
  · exact absurd hread ReadsText.ne_conflicting
  · cases hmissing
  · exact absurd hcoerces Coerces.ne_conflicting
  · injection heq

/-! ### Sections -/

namespace ComponentSection

variable {id : String} {component : ComponentSection}

theorem id_of_ofDatum {value : Datum} (hread : ofDatum id value = .ok component) :
    component.id = id := by
  unfold ofDatum at hread
  split at hread
  · split at hread
    · obtain rfl := Except.ok.inj hread
      rfl
    · cases hread
  · obtain rfl := Except.ok.inj hread
    rfl
  · cases hread

/-- The first section is read when its id is not blank and names a component that has none so
far. -/
theorem readAll_cons_eq_ok_iff {seen : List (String × String)} {name : String} {value : Datum}
    {rest : List (String × Datum)} {components : List ComponentSection} :
    readAll seen ((name, value) :: rest) = .ok components ↔
      (Text.trim name).isEmpty = false ∧ seen.lookup (Key.normal name) = none ∧
        ∃ component others, ofDatum name value = .ok component ∧
          readAll ((Key.normal name, name) :: seen) rest = .ok others ∧
            components = component :: others := by
  rw [readAll]
  split_ifs with hempty
  · simp [hempty]
  · cases hlookup : seen.lookup (Key.normal name) with
    | some previous => simp
    | none =>
      cases hvalue : ofDatum name value with
      | error error => simp
      | ok component =>
        cases hrest : readAll ((Key.normal name, name) :: seen) rest with
        | error error => simp [Except.map]
        | ok others => simp [hempty, Except.map, eq_comm]

/-- All sections can be read exactly when their ids are not blank and name different components, and
each section can be read. -/
theorem readAll_eq_ok_iff {seen : List (String × String)} {sections : List (String × Datum)}
    {components : List ComponentSection} : readAll seen sections = .ok components ↔
      (∀ given ∈ sections, (Text.trim given.1).isEmpty = false ∧
        seen.lookup (Key.normal given.1) = none) ∧ Once sections ∧
      List.Forall₂ (fun given component ↦ ofDatum given.1 given.2 = .ok component)
        sections components := by
  induction sections generalizing seen components with
  | nil =>
    rw [readAll, List.forall₂_nil_left_iff, Except.ok.injEq]
    refine ⟨fun hnone ↦ ⟨by simp, List.nodup_nil, hnone.symm⟩, ?_⟩
    rintro ⟨-, -, hnone⟩
    exact hnone.symm
  | cons first rest ih =>
    obtain ⟨name, value⟩ := first
    have honce : Once ((name, value) :: rest) ↔
        (∀ given ∈ rest, Key.normal given.1 ≠ Key.normal name) ∧ Once rest := by
      rw [Once, List.map_cons, List.nodup_cons]
      simp [Once]
    have hseen : (∀ given ∈ rest, (Text.trim given.1).isEmpty = false ∧
          ((Key.normal name, name) :: seen).lookup (Key.normal given.1) = none) ↔
        (∀ given ∈ rest, (Text.trim given.1).isEmpty = false ∧
          seen.lookup (Key.normal given.1) = none) ∧
        ∀ given ∈ rest, Key.normal given.1 ≠ Key.normal name := by
      rw [← forall₂_and]
      refine forall₂_congr fun given _ ↦ ?_
      rw [List.lookup_cons]
      by_cases hname : Key.normal given.1 = Key.normal name
      · simp [hname]
      · simp [beq_false_of_ne hname, hname]
    rw [readAll_cons_eq_ok_iff, List.forall_mem_cons, List.forall₂_cons_left_iff, honce]
    simp only [ih, hseen]
    constructor
    · rintro ⟨hblank, hnew, component, others, hread, ⟨⟨hgiven, hdiffer⟩, honce, hall⟩, rfl⟩
      exact ⟨⟨⟨hblank, hnew⟩, hgiven⟩, ⟨hdiffer, honce⟩, component, others, hread, hall, rfl⟩
    · rintro ⟨⟨⟨hblank, hnew⟩, hgiven⟩, ⟨hdiffer, honce⟩, component, others, hread, hall, rfl⟩
      exact ⟨hblank, hnew, component, others, hread, ⟨⟨hgiven, hdiffer⟩, honce, hall⟩, rfl⟩

/-- The sections that are read have the ids given, in the same order. -/
theorem ids_of_readAll {sections : List (String × Datum)} {components : List ComponentSection}
    (hread : readAll [] sections = .ok components) :
    components.map (·.id) = sections.map (·.1) := by
  obtain ⟨-, -, hall⟩ := readAll_eq_ok_iff.mp hread
  clear hread
  induction hall with
  | nil => rfl
  | cons hfirst _ ih => rw [List.map_cons, List.map_cons, id_of_ofDatum hfirst, ih]

/-- No two sections that are read are for one component. -/
theorem nodup_forms_of_readAll {sections : List (String × Datum)}
    {components : List ComponentSection} (hread : readAll [] sections = .ok components) :
    (components.map fun component ↦ Key.normal component.id).Nodup := by
  have hmap := congrArg (List.map Key.normal) (ids_of_readAll hread)
  rw [List.map_map, List.map_map] at hmap
  exact hmap ▸ (readAll_eq_ok_iff.mp hread).2.1

/-- A section that is found is read, and no other section is for its component. -/
theorem exists_of_find? {sections : List (String × Datum)} {components : List ComponentSection}
    (hread : readAll [] sections = .ok components) {name : String} {value : Datum}
    (hfind : find? id sections = some (name, value)) :
    ∃ component ∈ components, ofDatum name value = .ok component ∧
      ∀ other ∈ components, Key.normal other.id = Key.normal id → other = component := by
  obtain ⟨-, honce, hall⟩ := readAll_eq_ok_iff.mp hread
  obtain ⟨hmem, hname⟩ := (find?_eq_some_iff honce).mp hfind
  obtain ⟨component, hcomponent, hvalue⟩ : ∃ component ∈ components,
      ofDatum name value = .ok component := by
    clear hread hfind honce
    induction hall with
    | nil => simp at hmem
    | @cons given component _ _ hfirst _ ih =>
      rcases List.mem_cons.mp hmem with rfl | hmem
      · exact ⟨component, List.mem_cons_self, hfirst⟩
      · obtain ⟨found, hfound, hvalue⟩ := ih hmem
        exact ⟨found, List.mem_cons_of_mem _ hfound, hvalue⟩
  refine ⟨component, hcomponent, hvalue, fun other hother hsame ↦ ?_⟩
  refine List.inj_on_of_nodup_map (nodup_forms_of_readAll hread) hother hcomponent ?_
  rw [hsame, id_of_ofDatum hvalue, hname]

/-! ### The switch -/

/-- The switch has the position that stands under its key, where no key stands twice. -/
theorem position_eq {fields : List (String × Datum)} (hnames : (Fields.names fields).Nodup)
    (enabled : Bool) : position enabled fields =
      match Fields.get? switchKey fields with
      | some value => switch value
      | none => .ok enabled := by
  induction fields generalizing enabled with
  | nil => rfl
  | cons field rest ih =>
    obtain ⟨key, value⟩ := field
    obtain ⟨hnew, hrest⟩ := List.nodup_cons.mp hnames
    rw [position, Fields.get?]
    split_ifs with hkey
    · have hnone : Fields.get? switchKey rest = none := by
        rw [Fields.get?_eq_none_iff, ← hkey]
        exact hnew
      simp only [ih hrest, hnone]
      cases switch value <;> rfl
    · exact ih hrest enabled

/-- A section is on, unless its very key `enabled` says otherwise. -/
theorem switch_of_ofDatum {entries : List (String × Datum)} (hordered : Fields.Ordered entries)
    (hread : ofDatum id (.table entries) = .ok component) :
    (match Fields.get? switchKey entries with
      | some value => switch value
      | none => .ok true) = .ok component.enabled := by
  rw [ofDatum] at hread
  split at hread
  · rename_i enabled values hvalues
    obtain rfl := Except.ok.inj hread
    rw [← position_eq hordered.nodup_names]
    exact (read_eq_ok_iff.mp hvalues).1
  · cases hread

/-! ### One option -/

/-- A table without tables gives its own values to the binder. -/
theorem settingLeaves_of_isLeaf {entries : List (String × Datum)}
    (hleaf : ∀ entry ∈ entries, entry.2.IsLeaf) : settingLeaves entries =
      (entries.filter (·.1 ≠ switchKey)).filter (isPresent ·.2) := by
  rw [settingLeaves, Datum.dottedFields_of_isLeaf]
  exact fun entry hentry ↦ hleaf entry (List.mem_filter.mp hentry).1

/-- An option that stands under one key of a table without tables has one entry, the text there. -/
theorem entriesOf_of_clear {entries : List (String × Datum)} {spec : OptionSpec}
    (hclear : Relaxed.ClearTable spec.name entries)
    (hread : ofDatum id (.table entries) = .ok component) {key : String} {value : Datum}
    (hfind : find? spec.name entries = some (key, value)) (hkey : key ≠ switchKey)
    (hpresent : isPresent value = true) : ∃ text, leafText? value = some text ∧
      Binder.entriesOf component.rawValues spec = [(key, .text text)] := by
  have hnames := hclear.ordered.nodup_names
  have hagree := filter_eq_find?_of_onceFor hnames hclear.once
  rw [hfind] at hagree
  have hleaves : (settingLeaves entries).filter (fun leaf ↦ Key.agree leaf.1 spec.name) =
      [] ++ [(key, value)] := by
    have hsplit : (entries.filter fun leaf ↦
          Key.agree leaf.1 spec.name && isPresent leaf.2 && leaf.1 ≠ switchKey) =
        (entries.filter fun leaf ↦ Key.agree leaf.1 spec.name).filter fun leaf ↦
          isPresent leaf.2 && leaf.1 ≠ switchKey := by
      rw [List.filter_filter]
      refine List.filter_congr fun leaf _ ↦ ?_
      rw [Bool.and_assoc, Bool.and_comm]
    rw [settingLeaves_of_isLeaf hclear.leaf, List.filter_filter, List.filter_filter, hsplit, hagree]
    simp [hkey, hpresent]
  obtain ⟨text, htext, hentries⟩ := entriesOf_of_last hread hleaves (by simp)
  exact ⟨text, htext, hentries⟩

/-- An option that stands under one key of a table without tables has one key among the raw
values. -/
theorem onceFor_rawValues {key : String} {entries : List (String × Datum)}
    (hclear : Relaxed.ClearTable key entries)
    (hread : ofDatum id (.table entries) = .ok component) :
    (Fields.names component.rawValues).Nodup ∧ OnceFor key component.rawValues := by
  rw [ofDatum] at hread
  split at hread
  · rename_i enabled values hvalues
    obtain rfl := Except.ok.inj hread
    obtain ⟨hordered, hnames⟩ := read_flat hclear.leaf List.Pairwise.nil hvalues
    have hsame : Fields.names (rawValues ⟨id, enabled, values⟩) = Fields.names values := by
      rw [Fields.names, rawValues, List.map_map]
      rfl
    have hmem : ∀ name ∈ Fields.names values, name ∈ Fields.names entries := fun name hname ↦
      (hnames name hname).resolve_left List.not_mem_nil
    rw [onceFor_iff_names, hsame]
    have honce := onceFor_iff_names.mp hclear.once
    exact ⟨hordered.nodup_names, fun first hfirst second hsecond ↦
      honce first (hmem first hfirst) second (hmem second hsecond)⟩
  · cases hread

/-- So no binding finds it in conflict. -/
theorem bind_ne_conflicting_of_clear {key : String} {entries : List (String × Datum)}
    (hclear : Relaxed.ClearTable key entries)
    (hread : ofDatum id (.table entries) = .ok component) (binder : Binder) (schema : Schema)
    (resolver : Resolver) {option : String} (hoption : Key.normal option = Key.normal key)
    (owner : String) (keys : List String) :
    (binder.bind schema component.rawValues resolver).value ≠
      .error (.conflictingKeys owner option keys) := by
  intro hbind
  have hbinds := (Binder.bind_value_eq_iff schema component.rawValues _).mp hbind
  cases hbinds with
  | @refused before after spec error hoptions hbefore hspec =>
    obtain rfl := hspec.name_of_conflicting
    have htwo := hspec.two_le_of_conflicting
    obtain ⟨hnames, honce⟩ := onceFor_rawValues hclear hread
    rw [Binder.entriesOf, filter_eq_find?_of_onceFor hnames (honce.congr hoption.symm)] at htwo
    have hone := Option.length_toList_le (o := find? spec.name component.rawValues)
    omega

end ComponentSection

/-- A component whose section is found in a configuration has that one section to bind. -/
theorem Config.exists_component {config : Config} {components : List ComponentSection}
    (hsections : config.sections = .ok components) {id name : String} {value : Datum}
    (hfind : find? id config.components = some (name, value)) :
    ∃ component ∈ components, ComponentSection.ofDatum name value = .ok component ∧
      ∀ other ∈ components, Key.normal other.id = Key.normal id → other = component :=
  ComponentSection.exists_of_find? hsections hfind

end Connectors
