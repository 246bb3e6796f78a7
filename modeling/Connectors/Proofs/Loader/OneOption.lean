import Connectors.Proofs.Loader.Merging
import Connectors.Proofs.Sections.OneComponent

/-!
# One option in merged sources

The merge law for one option of one component. Sources may spell everything else as they like, or in
several ways: as long as each of them addresses the option clearly (`Layer.ClearSource`) and the
merged sections have one section for the component, the option is there once, in the spelling of the
first source that sets it and with the value of the last (`mergeAll_option`). In a configuration
that is read from them the component has one section, with that one key for the option
(`exists_component`).
-/

set_option autoImplicit false
set_option relaxedAutoImplicit false

namespace Connectors.Layer

open Spelling Relaxed

variable {id key : String}

/-- A source in which at most one path of each section of a component leads to an option. -/
structure ClearSource (id key : String) (source : List (String × Datum)) : Prop where
  /-- The names of the source are in order. -/
  ordered : Fields.Ordered source
  /-- The sections are in a table. -/
  table : ∀ value, Fields.get? componentsKey source = some value →
    ∃ sections, value = .table sections
  /-- They address the option clearly. -/
  addresses : Addresses id key (sections (.ok source))

/-- A source that holds nothing but sections. -/
theorem clearSource_of_sections {given : List (String × Datum)} (hgiven : Addresses id key given) :
    ClearSource id key [(componentsKey, .table given)] := by
  have hget : Fields.get? componentsKey [(componentsKey, Datum.table given)] =
      some (.table given) := rfl
  refine ⟨List.pairwise_singleton _ _, fun value hvalue ↦ ?_, hgiven⟩
  exact ⟨given, (Option.some.inj (hget.symm.trans hvalue)).symm⟩

/-- A clear source over a layer: the sections are in order, and if there is one for the component,
they are clear and have the latest setting. -/
theorem relaxedMerge_option {layer : Layer} {known source fields : List (String × Datum)}
    (hholds : layer.Holds known) (hknown : Fields.Ordered known)
    (hclear : OnceFor id known → Clear id key known) (hsource : ClearSource id key source)
    (hmerge : layer.relaxedMerge (.ok source) = .ok fields) :
    ∃ merged, Holds (.ok fields) merged ∧ Fields.Ordered merged ∧ (OnceFor id merged →
      OnceFor id known ∧ Clear id key merged ∧ setting? id key merged =
        latest (setting? id key known) (setting? id key (sections (.ok source)))) := by
  cases hcomponents : Fields.get? componentsKey source with
  | none =>
    have hnone : sections (.ok source) = [] := by rw [sections, hcomponents]
    have hkeep := relaxedMerge_of_none hholds hsource.ordered hcomponents
    refine ⟨known, hmerge ▸ hkeep, hknown, fun honce ↦ ⟨honce, hclear honce, ?_⟩⟩
    rw [hnone]
    cases setting? id key known <;> rfl
  | some value =>
    obtain ⟨given, rfl⟩ := hsource.table value hcomponents
    have hgiven : Addresses id key given := sections_eq hcomponents ▸ hsource.addresses
    cases hrelax : relax known given with
    | error fault =>
      rw [relaxedMerge_of_fault hholds hcomponents hrelax] at hmerge
      cases hmerge
    | ok relaxedGiven =>
      have hover := relaxedMerge_of_relax hholds hsource.ordered hcomponents hrelax
      refine ⟨_, hmerge ▸ hover, Datum.ordered_overlayFields hknown, fun honce ↦ ?_⟩
      obtain ⟨honceKnown, honceGiven⟩ := onceFor_of_merge hknown hgiven.names hrelax honce
      obtain ⟨hmerged, -, hsetting⟩ :=
        merge_option (hclear honceKnown) hgiven honceGiven hrelax
      rw [sections_eq hcomponents]
      exact ⟨honceKnown, hmerged, hsetting⟩

/-- One option in all sources, one after another. -/
theorem mergeAll_option {sources : List (List (String × Datum))}
    (hsources : ∀ source ∈ sources, ClearSource id key source) {fields : List (String × Datum)}
    (hmerge : mergeAll sources = .ok fields) :
    ∃ merged, Holds (.ok fields) merged ∧ Fields.Ordered merged ∧ (OnceFor id merged →
      Clear id key merged ∧ setting? id key merged =
        firstAndLast (sources.filterMap fun source ↦ setting? id key (sections (.ok source)))) := by
  induction sources using List.reverseRecOn generalizing fields with
  | nil =>
    have hnone : Clear id key [] := ⟨List.Pairwise.nil, by simp [OnceFor], by simp⟩
    exact ⟨[], hmerge ▸ holds_defaults, List.Pairwise.nil, fun _ ↦ ⟨hnone, rfl⟩⟩
  | append_singleton sources source ih =>
    have hlast : (mergeAll sources).relaxedMerge (.ok source) = .ok fields := by
      rw [← hmerge, mergeAll, mergeAll, List.foldl_append]
      rfl
    cases hbefore : mergeAll sources with
    | error fault =>
      rw [hbefore] at hlast
      unfold relaxedMerge merge at hlast
      split at hlast <;> simp_all
    | ok earlier =>
      rw [hbefore] at hlast
      obtain ⟨known, hholds, hordered, hknown⟩ := ih
        (fun other hother ↦ hsources other (List.mem_append_left _ hother)) hbefore
      obtain ⟨merged, hmerged, hmergedOrdered, hspec⟩ := relaxedMerge_option hholds hordered
        (fun honce ↦ (hknown honce).1) (hsources source (by simp)) hlast
      refine ⟨merged, hmerged, hmergedOrdered, fun honce ↦ ?_⟩
      obtain ⟨honceKnown, hclear, hsetting⟩ := hspec honce
      refine ⟨hclear, ?_⟩
      rw [hsetting, (hknown honceKnown).2, List.filterMap_append]
      cases hgiven : setting? id key (sections (.ok source)) with
      | none => simp [hgiven, latest]
      | some field => simp [hgiven, firstAndLast_append]

/-! ### The configuration -/

/-- A component for which merged sections hold an option has one section in a configuration that is
read from them, and the option has one key there. -/
theorem exists_component {layer : Layer} {merged : List (String × Datum)}
    (hholds : layer.Holds merged) {config : Config} (hextract : Loader.extract layer = .ok config)
    {components : List ComponentSection} (hsections : config.sections = .ok components)
    {field : String × Datum}
    (hoption : OnceFor id merged → Clear id key merged ∧ setting? id key merged = some field) :
    ∃ spelling entries, find? id config.components = some (spelling, .table entries) ∧
      ClearTable key entries ∧ find? key entries = some (field.1, field.2.settled) ∧
      ∃ component ∈ components, ComponentSection.ofDatum spelling (.table entries) = .ok component ∧
        Key.normal component.id = Key.normal id ∧
        ∀ other ∈ components, Key.normal other.id = Key.normal id → other = component := by
  have hcomponents := components_of_extract hholds hextract
  -- The sections could be read, so no two of them are for one component.
  have honce : OnceFor id merged := by
    have hread := (ComponentSection.readAll_eq_ok_iff.mp hsections).2.1
    rw [hcomponents, settledFields_eq, Once, List.map_map] at hread
    exact Once.onceFor hread id
  obtain ⟨hclear, hsetting⟩ := hoption honce
  obtain ⟨spelling, entries, hfind, htable, hfield⟩ := hclear.find?_settled hsetting
  have hname := normal_of_find?_eq_some hfind
  rw [← hcomponents] at hfind
  obtain ⟨component, hcomponent, hread, honly⟩ := Config.exists_component hsections hfind
  have hid := congrArg Key.normal (ComponentSection.id_of_ofDatum hread)
  exact ⟨spelling, entries, hfind, htable, hfield, component, hcomponent, hread, hid.trans hname,
    honly⟩

end Connectors.Layer
