import Connectors.Proofs.Loader.Merging
import Connectors.Proofs.Sections.Elsewhere

/-!
# Layers that differ in one section

Two layers are `AlikeBut` for a component when they hold the same settings and the same sections of
all other components. A source that has no section for the component (`SparesComponent`) keeps them
so, and leaves the section of the component in each of them as it was (`AlikeBut.relaxedMerge`).
What is read from two such layers differs in the sections only (`AlikeBut.extract`).
-/

set_option autoImplicit false
set_option relaxedAutoImplicit false

namespace Connectors.Layer

open Spelling Relaxed

variable {id : String} {known fields source result : List (String × Datum)}

/-- Layers that are put over each other without a fault had none. -/
theorem eq_ok_of_relaxedMerge {earlier later : Layer}
    (hmerge : earlier.relaxedMerge later = .ok result) :
    (∃ fields, earlier = .ok fields) ∧ ∃ source, later = .ok source := by
  cases earlier with
  | error fault => cases hlater : later.relaxed (sections (.error fault)) <;>
      simp [relaxedMerge, merge, hlater] at hmerge
  | ok fields =>
    refine ⟨⟨fields, rfl⟩, ?_⟩
    cases later with
    | error fault => simp [relaxedMerge, relaxed, merge] at hmerge
    | ok source => exact ⟨source, rfl⟩

/-- A source is put over a layer after it was relaxed. -/
theorem exists_of_relaxedMerge (hmerge : relaxedMerge (.ok fields) (.ok source) = .ok result) :
    ∃ given, relaxed (sections (.ok fields)) (.ok source) = .ok given ∧
      Datum.overlayFields fields given = result := by
  cases hrelaxed : relaxed (sections (.ok fields)) (.ok source) with
  | error fault => simp [relaxedMerge, merge, hrelaxed] at hmerge
  | ok given => exact ⟨given, rfl, by simpa [relaxedMerge, merge, hrelaxed] using hmerge⟩

/-- A source is relaxed in its sections only. -/
theorem relaxed_cases {given : List (String × Datum)}
    (hrelaxed : relaxed known (.ok source) = .ok given) :
    (∃ sections relaxedSections, Fields.get? componentsKey source = some (.table sections) ∧
      relax known sections = .ok relaxedSections ∧
      Fields.put componentsKey (.table relaxedSections) source = given) ∨
    (∀ sections, Fields.get? componentsKey source ≠ some (.table sections)) ∧ source = given := by
  rw [relaxed] at hrelaxed
  split at hrelaxed
  · rename_i sections hget
    cases hrelax : relax known sections with
    | error fault => simp [hrelax, Except.map] at hrelaxed
    | ok relaxedSections =>
      exact .inl ⟨sections, relaxedSections, hget, hrelax,
        by simpa [hrelax, Except.map] using hrelaxed⟩
  · rename_i hnone
    exact .inr ⟨hnone, Except.ok.inj hrelaxed⟩

/-- Outside the sections a source is put over a layer as it is. -/
theorem get?_of_relaxedMerge (hordered : Fields.Ordered source)
    (hmerge : relaxedMerge (.ok fields) (.ok source) = .ok result) {name : String}
    (hname : name ≠ componentsKey) : Fields.get? name result =
      match Fields.get? name source with
      | some value => some (Datum.united (Fields.get? name fields) value)
      | none => Fields.get? name fields := by
  obtain ⟨given, hrelaxed, rfl⟩ := exists_of_relaxedMerge hmerge
  have hgiven : Fields.Ordered given ∧ Fields.get? name given = Fields.get? name source := by
    obtain ⟨_, _, -, -, rfl⟩ | ⟨-, rfl⟩ := relaxed_cases hrelaxed
    · exact ⟨Fields.ordered_put hordered, Fields.get?_put_of_ne _ _ hname⟩
    · exact ⟨hordered, rfl⟩
  have hget := @Datum.get?_overlayFields name fields given hgiven.1.nodup_names
  rw [hgiven.2] at hget
  exact hget

theorem exists_of_holds {layer : Layer} {known : List (String × Datum)}
    (hholds : layer.Holds known) : ∃ fields, layer = .ok fields ∧ Holds (.ok fields) known := by
  obtain ⟨fields, rfl, hheld⟩ := hholds
  exact ⟨fields, rfl, fields, rfl, hheld⟩

/-! ### A source for other components -/

/-- A source that has no section for a component. -/
structure SparesComponent (id : String) (source : List (String × Datum)) : Prop where
  /-- The names of the source are in order. -/
  ordered : Fields.Ordered source
  /-- The sections are in a table. -/
  table : ∀ value, Fields.get? componentsKey source = some value →
    ∃ sections, value = .table sections
  /-- None of them is for the component. -/
  spares : Spares id (sections (.ok source))

/-- Settings that are the same, and the same sections of all components but one. -/
structure AlikeBut (id : String) (fields others known knownOthers : List (String × Datum)) :
    Prop where
  /-- The first settings have a table of sections. -/
  holds : Holds (.ok fields) known
  /-- So have the second ones. -/
  holdsOthers : Holds (.ok others) knownOthers
  /-- The ids of the first ones are in order. -/
  ordered : Fields.Ordered known
  /-- So are those of the second ones. -/
  orderedOthers : Fields.Ordered knownOthers
  /-- Outside the sections the settings are the same. -/
  settings : ∀ name, name ≠ componentsKey → Fields.get? name fields = Fields.get? name others
  /-- The other sections are the same. -/
  sections : elsewhere id known = elsewhere id knownOthers

section AlikeBut

variable {others known knownOthers : List (String × Datum)}

/-- A source for other components can be put over both or none. Both keep their section of the
component, and stay alike but for it. -/
theorem AlikeBut.relaxedMerge (halike : AlikeBut id fields others known knownOthers)
    (hsource : SparesComponent id source)
    (hmerge : Layer.relaxedMerge (.ok others) (.ok source) = .ok result) :
    ∃ merged knownMerged knownResult, Layer.relaxedMerge (.ok fields) (.ok source) = .ok merged ∧
      AlikeBut id merged result knownMerged knownResult ∧
      (knownMerged.filter fun given ↦ Key.agree given.1 id) =
        known.filter (fun given ↦ Key.agree given.1 id) ∧
      (knownResult.filter fun given ↦ Key.agree given.1 id) =
        knownOthers.filter fun given ↦ Key.agree given.1 id := by
  have hsettings : ∀ merged, Layer.relaxedMerge (.ok fields) (.ok source) = .ok merged →
      ∀ name, name ≠ componentsKey → Fields.get? name merged = Fields.get? name result := by
    intro merged hmerged name hname
    rw [get?_of_relaxedMerge hsource.ordered hmerged hname,
      get?_of_relaxedMerge hsource.ordered hmerge hname, halike.settings name hname]
  cases hcomponents : Fields.get? componentsKey source with
  | none =>
    obtain ⟨merged, hmerged, hkept⟩ :=
      exists_of_holds (relaxedMerge_of_none halike.holds hsource.ordered hcomponents)
    have hkeptOthers := relaxedMerge_of_none halike.holdsOthers hsource.ordered hcomponents
    rw [hmerge] at hkeptOthers
    exact ⟨merged, known, knownOthers, hmerged, ⟨hkept, hkeptOthers, halike.ordered,
      halike.orderedOthers, hsettings merged hmerged, halike.sections⟩, rfl, rfl⟩
  | some value =>
    obtain ⟨given, rfl⟩ := hsource.table value hcomponents
    have hspares : Spares id given := sections_eq hcomponents ▸ hsource.spares
    cases hrelax : relax knownOthers given with
    | error fault =>
      rw [relaxedMerge_of_fault halike.holdsOthers hcomponents hrelax] at hmerge
      cases hmerge
    | ok relaxedGiven =>
      have hsame : relax known given = .ok relaxedGiven := by
        rw [← relax_elsewhere hspares, halike.sections, relax_elsewhere hspares, hrelax]
      have hrelaxed := spares_relax hspares hrelax
      obtain ⟨hpart, helsewhere⟩ := merge_elsewhere halike.ordered hrelaxed
      obtain ⟨hpartOthers, helsewhereOthers⟩ := merge_elsewhere halike.orderedOthers hrelaxed
      obtain ⟨merged, hmerged, hover⟩ :=
        exists_of_holds (relaxedMerge_of_relax halike.holds hsource.ordered hcomponents hsame)
      have hoverOthers :=
        relaxedMerge_of_relax halike.holdsOthers hsource.ordered hcomponents hrelax
      rw [hmerge] at hoverOthers
      refine ⟨merged, _, _, hmerged,
        ⟨hover, hoverOthers, Datum.ordered_overlayFields halike.ordered,
          Datum.ordered_overlayFields halike.orderedOthers, hsettings merged hmerged, ?_⟩,
        hpart, hpartOthers⟩
      rw [helsewhere, helsewhereOthers, halike.sections]

/-- If a configuration is read from the second settings, one that differs in the sections only is
read from the first ones. -/
theorem AlikeBut.extract (halike : AlikeBut id fields others known knownOthers) {config : Config}
    (hextract : Loader.extract (.ok others) = .ok config) :
    Loader.extract (.ok fields) = .ok { config with components := Datum.settledFields known } := by
  have hpart : ∀ {α : Type} (position : Nat) (name : String) (absent : α) (read : Datum → Option α),
      name ≠ componentsKey → (Datum.table fields).part? position name absent read =
        (Datum.table others).part? position name absent read := by
    intro α position name absent read hname
    simp only [Datum.part?, halike.settings name hname]
  obtain ⟨hlogging, hbinding, -⟩ := extract_eq_ok_iff.mp hextract
  refine extract_eq_ok_iff.mpr ⟨?_, ?_, ?_⟩
  · rw [hpart 0 _ _ _ (by decide), hlogging]
  · rw [hpart 1 _ _ _ (by decide), hbinding]
  · exact part?_components halike.holds

/-- One setting of a component over settings with neat sections: they stay alike but for the
component. -/
theorem relaxedMerge_setting (hholds : Holds (.ok fields) known) (hknown : Neat known)
    {sid path key : String} {value : Datum} (hleaf : value.IsLeaf)
    (hsid : Key.normal sid = Key.normal id) (hpath : Key.normal path = Key.normal key) :
    ∃ merged knownMerged,
      Layer.relaxedMerge (.ok fields)
        (.ok [(componentsKey, .table [(sid, .table [(path, value)])])]) = .ok merged ∧
      AlikeBut id merged fields knownMerged known ∧ SetOver id key value sid known knownMerged := by
  obtain ⟨relaxed, hrelax, hover⟩ := merge_setting hknown hleaf hsid hpath
  have hordered : Fields.Ordered [(componentsKey, Datum.table [(sid, .table [(path, value)])])] :=
    List.pairwise_singleton _ _
  obtain ⟨merged, hmerged, hheld⟩ :=
    exists_of_holds (relaxedMerge_of_relax hholds hordered rfl hrelax)
  refine ⟨merged, _, hmerged,
    ⟨hheld, hholds, hover.neat.ordered, hknown.ordered, ?_, hover.elsewhere⟩, hover⟩
  intro name hname
  rw [get?_of_relaxedMerge hordered hmerged hname, Fields.get?, if_neg (Ne.symm hname), Fields.get?]

end AlikeBut

end Connectors.Layer
