import Connectors.Config.Validation
import Connectors.Proofs.Binding.Reference
import Connectors.Proofs.Sections.Merging

/-!
# Reading merged sections

Where no id is spelled in two ways no two sections are for one component
(`readAll_ne_sameComponent`). The settings of a section that is read from a flat table have keys of
the table for names, so none of them is spelled in two ways (`once_rawValues`), and binding them
finds no conflict (`Binder.bind_ne_conflicting`).
-/

set_option autoImplicit false
set_option relaxedAutoImplicit false

namespace Connectors

open Spelling

/-! ### Binding -/

namespace Binder

variable {binder : Binder} {component : String} {resolver : Resolver} {spec : OptionSpec}
  {owner option : String} {keys : List String}

theorem ReadsText.ne_conflicting {text : String} :
    ¬ ReadsText component spec text (.error (.conflictingKeys owner option keys)) := by
  intro hread
  cases hread

theorem Coerces.ne_conflicting {raw : RawValue} :
    ¬ Coerces component resolver spec raw (.error (.conflictingKeys owner option keys)) := by
  intro hcoerces
  cases hcoerces with
  | text _ hread => exact ReadsText.ne_conflicting hread
  | named _ _ htake => cases htake
  | object htake => cases htake

/-- An option is in conflict only when several entries lead to it. -/
theorem Resolves.two_le_of_conflicting {entries : RawValues}
    (hresolves : binder.Resolves component resolver spec entries
      (.error (.conflictingKeys owner option keys))) : 2 ≤ entries.length := by
  rcases hresolves.of_error with ⟨text, hread⟩ | hmissing | ⟨key, raw, -, hcoerces⟩ | ⟨hseveral, -⟩
  · exact absurd hread ReadsText.ne_conflicting
  · cases hmissing
  · exact absurd hcoerces Coerces.ne_conflicting
  · exact hseveral

/-- Where no key is spelled in two ways no option is in conflict. -/
theorem bind_ne_conflicting {raw : RawValues} (honce : Once raw) (binder : Binder) (schema : Schema)
    (resolver : Resolver) (owner option : String) (keys : List String) :
    (binder.bind schema raw resolver).value ≠ .error (.conflictingKeys owner option keys) := by
  intro hbind
  have hbinds := (bind_value_eq_iff schema raw _).mp hbind
  cases hbinds with
  | @refused before after spec error hoptions hbefore hspec =>
    have hone : (entriesOf raw spec).length ≤ 1 := by
      rw [entriesOf, filter_eq_find? honce]
      exact Option.length_toList_le
    have htwo := hspec.two_le_of_conflicting
    omega

end Binder

/-! ### Numbers that are not finite -/

namespace Relaxed

theorem settledFields_eq (fields : List (String × Datum)) :
    Datum.settledFields fields = fields.map fun (name, value) ↦ (name, value.settled) := by
  induction fields with
  | nil => rw [Datum.settledFields, List.map_nil]
  | cons field rest ih =>
    obtain ⟨name, value⟩ := field
    rw [Datum.settledFields, ih, List.map_cons]

theorem isLeaf_settled {value : Datum} (hleaf : value.IsLeaf) : value.settled.IsLeaf := by
  cases value with
  | table fields => exact absurd rfl (hleaf fields)
  | float value =>
    rw [Datum.settled]
    split_ifs <;> simp [Datum.IsLeaf]
  | _ => simp [Datum.settled, Datum.IsLeaf]

theorem flat_settledFields {entries : List (String × Datum)} (hflat : Flat entries) :
    Flat (Datum.settledFields entries) := by
  rw [settledFields_eq]
  refine ⟨List.pairwise_map.mpr hflat.ordered, ?_, fun entry hentry ↦ ?_⟩
  · rw [Once, List.map_map]
    exact hflat.once
  · obtain ⟨given, hgiven, rfl⟩ := List.mem_map.mp hentry
    exact isLeaf_settled (hflat.leaf given hgiven)

/-- Sections stay neat when numbers that are not finite are taken for no values. -/
theorem neat_settledFields {sections : List (String × Datum)} (hneat : Neat sections) :
    Neat (Datum.settledFields sections) := by
  rw [settledFields_eq]
  refine ⟨List.pairwise_map.mpr hneat.ordered, ?_, fun given hgiven ↦ ?_⟩
  · rw [Once, List.map_map]
    exact hneat.once
  · obtain ⟨⟨id, value⟩, hmem, rfl⟩ := List.mem_map.mp hgiven
    obtain ⟨entries, hvalue, hflat⟩ := hneat.flat _ hmem
    obtain rfl : value = .table entries := hvalue
    exact ⟨Datum.settledFields entries, by simp [Datum.settled], flat_settledFields hflat⟩

end Relaxed

/-! ### Reading -/

namespace ComponentSection

theorem ofDatum_ne_validation (id : String) (value : Datum) (fault : ValidationFault) :
    ofDatum id value ≠ .error (.validation fault) := by
  unfold ofDatum
  split
  · split <;> simp
  · simp
  · simp

/-- No section is refused as a second one for its component where no id is spelled in two ways. -/
theorem readAll_ne_sameComponent {seen : List (String × String)} {sections : List (String × Datum)}
    (honce : Once sections)
    (hseen : ∀ given ∈ sections, seen.lookup (Key.normal given.1) = none) (previous id : String) :
    readAll seen sections ≠ .error (.validation (.sameComponent previous id)) := by
  induction sections generalizing seen with
  | nil => simp [readAll]
  | cons first rest ih =>
    obtain ⟨name, value⟩ := first
    obtain ⟨hname, hrest⟩ := List.nodup_cons.mp honce
    obtain ⟨hfirst, hothers⟩ := List.forall_mem_cons.mp hseen
    have hseen' : ∀ given ∈ rest,
        ((Key.normal name, name) :: seen).lookup (Key.normal given.1) = none := by
      intro given hgiven
      have hne : Key.normal given.1 ≠ Key.normal name := fun heq ↦
        hname (List.mem_map.mpr ⟨given, hgiven, heq⟩)
      rw [List.lookup_cons, beq_false_of_ne hne]
      exact hothers given hgiven
    have hlater := ih hrest hseen'
    rw [readAll, hfirst]
    split_ifs with hempty
    · simp
    · cases hvalue : ofDatum name value with
      | error error =>
        intro herror
        obtain rfl := Except.error.inj herror
        exact ofDatum_ne_validation name value _ hvalue
      | ok component =>
        intro hmap
        refine hlater ?_
        cases hread : readAll ((Key.normal name, name) :: seen) rest with
        | error error => simpa [hread, Except.map] using hmap
        | ok components => simp [hread, Except.map] at hmap

/-- What is read comes from the sections. -/
theorem exists_of_mem_readAll {seen : List (String × String)} {sections : List (String × Datum)}
    {components : List ComponentSection} (hread : readAll seen sections = .ok components)
    {component : ComponentSection} (hmem : component ∈ components) :
    ∃ given ∈ sections, ofDatum given.1 given.2 = .ok component := by
  induction sections generalizing seen components with
  | nil =>
    obtain rfl : [] = components := by simpa [readAll] using hread
    simp at hmem
  | cons first rest ih =>
    obtain ⟨name, value⟩ := first
    rw [readAll] at hread
    split_ifs at hread
    split at hread
    · cases hread
    · split at hread
      · cases hread
      · rename_i found hfound
        cases hothers : readAll ((Key.normal name, name) :: seen) rest with
        | error error => simp [hothers, Except.map] at hread
        | ok others =>
          obtain rfl : found :: others = components := by simpa [hothers, Except.map] using hread
          rcases List.mem_cons.mp hmem with rfl | hmem
          · exact ⟨(name, value), List.mem_cons_self, hfound⟩
          · obtain ⟨given, hgiven, hsection⟩ := ih hothers hmem
            exact ⟨given, List.mem_cons_of_mem _ hgiven, hsection⟩

/-! ### The settings of a flat section -/

/-- What is no table gives settings under its own key only. -/
theorem name_of_mem_flatten {key : String} {value : Datum} (hleaf : value.IsLeaf)
    {settings : List (String × String)} (hflatten : flatten key value = .ok settings) :
    ∀ setting ∈ settings, setting.1 = key := by
  match value with
  | .table fields => exact absurd rfl (hleaf fields)
  | .list items =>
    rw [flatten] at hflatten
    split at hflatten
    · obtain rfl := Except.ok.inj hflatten
      simp
    · cases hflatten
  | .null | .bool _ | .int _ | .float _ | .text _ =>
    simp only [flatten, scalarText?, Except.ok.injEq] at hflatten
    obtain rfl := hflatten
    simp

/-- The settings of a flat table have keys of the table for names. -/
theorem read_flat {enabled : Bool} {values : Fields String} {entries : List (String × Datum)}
    (hleaf : ∀ entry ∈ entries, entry.2.IsLeaf) (hordered : Fields.Ordered values)
    {answer : Bool × Fields String} (hread : read enabled values entries = .ok answer) :
    Fields.Ordered answer.2 ∧ ∀ name ∈ Fields.names answer.2,
      name ∈ Fields.names values ∨ name ∈ Fields.names entries := by
  induction entries generalizing enabled values with
  | nil =>
    obtain rfl := Except.ok.inj hread
    exact ⟨hordered, fun name hname ↦ .inl hname⟩
  | cons entry rest ih =>
    obtain ⟨key, value⟩ := entry
    obtain ⟨hfirst, hrest⟩ := List.forall_mem_cons.mp hleaf
    rw [read] at hread
    split_ifs at hread with hswitch
    · split at hread
      · obtain ⟨hanswer, hnames⟩ := ih hrest hordered hread
        refine ⟨hanswer, fun name hname ↦ (hnames name hname).imp_right fun hother ↦ ?_⟩
        exact List.mem_cons_of_mem _ hother
      · cases hread
    · split at hread
      · rename_i settings hflatten
        obtain ⟨hanswer, hnames⟩ := ih hrest (Fields.ordered_putAll hordered settings) hread
        refine ⟨hanswer, fun name hname ↦ ?_⟩
        rcases hnames name hname with hput | hother
        · rcases Fields.mem_names_putAll.mp hput with hvalue | hsetting
          · exact .inl hvalue
          · obtain ⟨setting, hmem, rfl⟩ := List.mem_map.mp hsetting
            rw [name_of_mem_flatten hfirst hflatten setting hmem]
            exact .inr List.mem_cons_self
        · exact .inr (List.mem_cons_of_mem _ hother)
      · cases hread

/-- So no two of them are spellings of one. -/
theorem once_rawValues {id : String} {entries : List (String × Datum)}
    (hflat : Relaxed.Flat entries) {component : ComponentSection}
    (hread : ofDatum id (.table entries) = .ok component) : Once component.rawValues := by
  rw [ofDatum] at hread
  split at hread
  · rename_i enabled values hvalues
    obtain rfl := Except.ok.inj hread
    obtain ⟨hordered, hnames⟩ := read_flat hflat.leaf List.Pairwise.nil hvalues
    have hnodup : values.Nodup := hordered.nodup_names.of_map
    rw [Once, rawValues, List.map_map]
    have hentry : ∀ setting ∈ values, ∃ value, (setting.1, value) ∈ entries := by
      intro setting hsetting
      have hname := hnames setting.1 (List.mem_map_of_mem hsetting)
      exact Fields.mem_names_iff.mp (hname.resolve_left List.not_mem_nil)
    refine List.Nodup.map_on ?_ hnodup
    intro first hfirst second hsecond hsame
    obtain ⟨value, hvalue⟩ := hentry first hfirst
    obtain ⟨other, hother⟩ := hentry second hsecond
    have hpair := List.inj_on_of_nodup_map hflat.once hvalue hother hsame
    exact List.inj_on_of_nodup_map hordered.nodup_names hfirst hsecond (Prod.mk.inj hpair).1
  · cases hread

end ComponentSection

/-- The sections of a configuration whose sections are neat are for different components, and no key
of one of them is spelled in two ways. -/
theorem Config.sections_of_neat {config : Config} (hneat : Relaxed.Neat config.components) :
    (∀ previous id, config.sections ≠ .error (.validation (.sameComponent previous id))) ∧
      ∀ components, config.sections = .ok components →
        ∀ component ∈ components, Once component.rawValues := by
  constructor
  · intro previous id
    refine ComponentSection.readAll_ne_sameComponent hneat.once (fun given _ ↦ ?_) previous id
    exact List.lookup_nil
  · intro components hread component hmem
    obtain ⟨⟨id, value⟩, hgiven, hsection⟩ := ComponentSection.exists_of_mem_readAll hread hmem
    obtain ⟨entries, hvalue, hflat⟩ := hneat.flat _ hgiven
    obtain rfl : value = .table entries := hvalue
    exact ComponentSection.once_rawValues hflat hsection

end Connectors
