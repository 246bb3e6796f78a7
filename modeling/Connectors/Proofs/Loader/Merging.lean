import Connectors.Loader.Basic
import Connectors.Proofs.Sections.Reading
import Mathlib.Data.List.Induction

/-!
# Merging sources

Sources are merged one after another over the defaults. Where each source is tidy for itself
(`Layer.TidySource`), the merged sections are neat, and every option that any source sets is there
once, in the spelling of the first source that sets it and with the value of the last
(`mergeAll_holds`). So a configuration that is read from tidy sources has one section for each
component, and no option of a section is in conflict (`merged_sources`). What a loader merges are
such sources: those of its files, of the environment and of the program (`loaded_sources`).
-/

set_option autoImplicit false
set_option relaxedAutoImplicit false

namespace Connectors.Layer

open Spelling Relaxed

/-- A source whose sections, if it has any, are tidy. -/
structure TidySource (source : List (String × Datum)) : Prop where
  /-- The names of the source are in order. -/
  ordered : Fields.Ordered source
  /-- The sections are in a table. -/
  table : ∀ value, Fields.get? componentsKey source = some value →
    ∃ sections, value = .table sections
  /-- They are tidy. -/
  tidy : Tidy (sections (.ok source))

/-- A source that holds nothing but tidy sections is tidy. -/
theorem tidySource_of_sections {given : List (String × Datum)} (htidy : Tidy given) :
    TidySource [(componentsKey, .table given)] := by
  have hget : Fields.get? componentsKey [(componentsKey, Datum.table given)] =
      some (.table given) := rfl
  refine ⟨List.pairwise_singleton _ _, fun value hvalue ↦ ?_, htidy⟩
  exact ⟨given, (Option.some.inj (hget.symm.trans hvalue)).symm⟩

/-- All sources, one after another, over the defaults. -/
def mergeAll (sources : List (List (String × Datum))) : Layer :=
  sources.foldl (fun merged source ↦ merged.relaxedMerge (.ok source)) (.ok (Config.fields {}))

/-- A layer that is not at fault and has a table of sections. -/
def Holds (layer : Layer) (sections : List (String × Datum)) : Prop :=
  ∃ fields, layer = .ok fields ∧ Fields.Ordered fields ∧
    Fields.get? componentsKey fields = some (.table sections)

theorem holds_defaults : Holds (.ok (Config.fields {})) [] :=
  ⟨_, rfl, Fields.ordered_ofList _, rfl⟩

theorem sections_of_holds {layer : Layer} {merged : List (String × Datum)}
    (hholds : layer.Holds merged) : layer.sections = merged := by
  obtain ⟨fields, rfl, -, hget⟩ := hholds
  rw [sections, hget]

theorem sections_eq {source : List (String × Datum)} {given : List (String × Datum)}
    (hget : Fields.get? componentsKey source = some (.table given)) :
    sections (.ok source) = given := by
  rw [sections, hget]

/-- A source without sections leaves those of a layer as they are. -/
theorem relaxedMerge_of_none {layer : Layer} {known source : List (String × Datum)}
    (hholds : layer.Holds known) (hordered : Fields.Ordered source)
    (hnone : Fields.get? componentsKey source = none) :
    (layer.relaxedMerge (.ok source)).Holds known := by
  obtain ⟨fields, rfl, hfields, hget⟩ := hholds
  have hmerge : relaxedMerge (.ok fields) (.ok source) =
      .ok (Datum.overlayFields fields source) := by
    simp [relaxedMerge, relaxed, merge, hnone]
  refine ⟨_, hmerge, Datum.ordered_overlayFields hfields, ?_⟩
  rw [Datum.get?_overlayFields hordered.nodup_names, hnone, hget]

/-- The sections of a source that can be relaxed are put over those of a layer. -/
theorem relaxedMerge_of_relax {layer : Layer}
    {known source given relaxedGiven : List (String × Datum)} (hholds : layer.Holds known)
    (hordered : Fields.Ordered source)
    (hget : Fields.get? componentsKey source = some (.table given))
    (hrelax : relax known given = .ok relaxedGiven) :
    (layer.relaxedMerge (.ok source)).Holds (Datum.overlayFields known relaxedGiven) := by
  have hsections := sections_of_holds hholds
  obtain ⟨fields, rfl, hfields, hheld⟩ := hholds
  let respelled := Fields.put componentsKey (.table relaxedGiven) source
  have hmerge : relaxedMerge (.ok fields) (.ok source) =
      .ok (Datum.overlayFields fields respelled) := by
    simp [relaxedMerge, relaxed, merge, hget, hsections, hrelax, Except.map, respelled]
  have hnames : (Fields.names respelled).Nodup :=
    (Fields.ordered_put hordered : Fields.Ordered respelled).nodup_names
  refine ⟨_, hmerge, Datum.ordered_overlayFields hfields, ?_⟩
  rw [Datum.get?_overlayFields hnames, Fields.get?_put_self, hheld]
  simp [Datum.united, Datum.overlay]

/-- The fault of sections that cannot be relaxed is that of the layer. -/
theorem relaxedMerge_of_fault {layer : Layer} {known source given : List (String × Datum)}
    (hholds : layer.Holds known) (hget : Fields.get? componentsKey source = some (.table given))
    {fault : LayerFault} (hrelax : relax known given = .error fault) :
    layer.relaxedMerge (.ok source) = .error fault := by
  have hsections := sections_of_holds hholds
  obtain ⟨fields, rfl, -, -⟩ := hholds
  simp [relaxedMerge, relaxed, merge, hget, hsections, hrelax, Except.map]

/-- A tidy source over a layer whose sections are neat. -/
theorem relaxedMerge_holds {layer : Layer} {known source : List (String × Datum)}
    (hholds : layer.Holds known) (hknown : Neat known) (hsource : TidySource source) :
    ∃ merged, (layer.relaxedMerge (.ok source)).Holds merged ∧ Neat merged ∧
      (∀ id, (find? id merged).map (·.1) =
        ((find? id known).map (·.1)).or ((find? id (sections (.ok source))).map (·.1))) ∧
      ∀ id key, setting? id key merged =
        latest (setting? id key known) (setting? id key (sections (.ok source))) := by
  cases hcomponents : Fields.get? componentsKey source with
  | none =>
    have hnone : sections (.ok source) = [] := by rw [sections, hcomponents]
    refine ⟨known, relaxedMerge_of_none hholds hsource.ordered hcomponents, hknown, ?_, ?_⟩
    · intro id
      rw [hnone]
      exact Option.or_none.symm
    · intro id key
      rw [hnone]
      cases setting? id key known <;> rfl
  | some value =>
    obtain ⟨given, rfl⟩ := hsource.table value hcomponents
    have htidy : Tidy given := sections_eq hcomponents ▸ hsource.tidy
    obtain ⟨relaxedSections, hrelax, hneat, hids, hsettings⟩ := merge_sections hknown htidy
    rw [sections_eq hcomponents]
    exact ⟨_, relaxedMerge_of_relax hholds hsource.ordered hcomponents hrelax, hneat, hids,
      hsettings⟩

/-- What has no sections is put over a layer as it is. -/
theorem merge_of_no_sections (layer : Layer) {source : List (String × Datum)}
    (hnone : Fields.get? componentsKey source = none) :
    layer.merge (.ok source) = layer.relaxedMerge (.ok source) := by
  rw [relaxedMerge, relaxed, hnone]

/-! ### All sources -/

/-- What a loader puts over the layers of its files are two more sources, and a third one if it
reads the environment. -/
theorem mergeRest_mergeAll {around : Surroundings} {loader : Loader}
    {general components overrides : List (String × Datum)}
    (hgeneral : around.environment.generalLayer = .ok general)
    (hnone : Fields.get? componentsKey general = none)
    (hcomponents : around.environment.componentLayer = .ok components)
    (hoverrides : loader.overrides = .ok overrides) (files : List (List (String × Datum))) :
    loader.mergeRest around (mergeAll files) =
      mergeAll (files ++ (if loader.usesEnvironment then [general, components] else []) ++
        [overrides]) := by
  rw [Loader.mergeRest, hgeneral, hcomponents, hoverrides, merge_of_no_sections _ hnone]
  cases loader.usesEnvironment <;> simp [mergeAll]

/-- The first spelling with the last value of an option that was given several times. -/
def firstAndLast (given : List (String × Datum)) : Option (String × Datum) :=
  match given.head?, given.getLast? with
  | some first, some last => some (first.1, last.2)
  | _, _ => none

theorem firstAndLast_append (given : List (String × Datum)) (field : String × Datum) :
    firstAndLast (given ++ [field]) = latest (firstAndLast given) (some field) := by
  rw [firstAndLast, List.getLast?_concat]
  cases given with
  | nil => rfl
  | cons first rest =>
    rw [firstAndLast, List.getLast?_cons]
    rfl

/-- The ids and the options of merged sources. -/
theorem mergeAll_holds {sources : List (List (String × Datum))}
    (hsources : ∀ source ∈ sources, TidySource source) :
    ∃ merged, (mergeAll sources).Holds merged ∧ Neat merged ∧
      (∀ id, (find? id merged).map (·.1) =
        sources.findSome? fun source ↦ (find? id (sections (.ok source))).map (·.1)) ∧
      ∀ id key, setting? id key merged =
        firstAndLast (sources.filterMap fun source ↦ setting? id key (sections (.ok source))) := by
  induction sources using List.reverseRecOn with
  | nil =>
    have hneat : Neat [] := ⟨List.Pairwise.nil, List.nodup_nil, by simp⟩
    exact ⟨[], holds_defaults, hneat, fun _ ↦ rfl, fun _ _ ↦ rfl⟩
  | append_singleton sources source ih =>
    obtain ⟨known, hholds, hknown, hids, hsettings⟩ := ih fun other hother ↦
      hsources other (List.mem_append_left _ hother)
    obtain ⟨merged, hmerged, hneat, hids', hsettings'⟩ := relaxedMerge_holds hholds hknown
      (hsources source (by simp))
    refine ⟨merged, ?_, hneat, fun id ↦ ?_, fun id key ↦ ?_⟩
    · rw [mergeAll, List.foldl_append]
      exact hmerged
    · rw [hids', hids, List.findSome?_append, List.findSome?_singleton]
    · rw [hsettings', hsettings, List.filterMap_append]
      cases hgiven : setting? id key (sections (.ok source)) with
      | none => simp [hgiven, latest]
      | some field => simp [hgiven, firstAndLast_append]

/-! ### The configuration -/

/-- A configuration is read from settings part by part. -/
theorem extract_eq_ok_iff {fields : List (String × Datum)} {config : Config} :
    Loader.extract (.ok fields) = .ok config ↔
    (Datum.table fields).part? 0 "logging" {} (LoggingConfig.ofDatum? .partly) =
        some config.logging ∧
      (Datum.table fields).part? 1 "binding" {} (BindingConfig.ofDatum? .partly) =
        some config.binding ∧
      (Datum.table fields).part? 2 "components" [] Config.componentsOf? =
        some config.components := by
  have hrecord : Datum.isRecord .partly 3 (.table fields) = true := rfl
  have hextract : Loader.extract (.ok fields) = .ok config ↔
      Config.ofDatum? .partly (.table fields) = some config := by
    rw [Loader.extract]
    cases Config.ofDatum? .partly (.table fields) <;> simp
  rw [hextract, Config.ofDatum?, hrecord]
  simp only [Bool.not_true, Bool.false_eq_true, if_false, Option.bind_eq_bind,
    Option.bind_eq_some_iff]
  constructor
  · rintro ⟨logging, hlogging, binding, hbinding, components, hcomponents, hconfig⟩
    obtain rfl := Option.some.inj hconfig
    exact ⟨hlogging, hbinding, hcomponents⟩
  · rintro ⟨hlogging, hbinding, hcomponents⟩
    exact ⟨_, hlogging, _, hbinding, _, hcomponents, rfl⟩

theorem part?_components {fields merged : List (String × Datum)}
    (hholds : Holds (.ok fields) merged) :
    (Datum.table fields).part? 2 "components" [] Config.componentsOf? =
      some (Datum.settledFields merged) := by
  obtain ⟨_, hfields, -, hget⟩ := hholds
  obtain rfl := Except.ok.inj hfields
  have hfound : Fields.get? "components" fields = some (.table merged) := hget
  simp only [Datum.part?, hfound, Config.componentsOf?]

theorem components_of_extract {layer : Layer} {merged : List (String × Datum)}
    (hholds : layer.Holds merged) {config : Config}
    (hextract : Loader.extract layer = .ok config) :
    config.components = Datum.settledFields merged := by
  obtain ⟨fields, rfl, hheld⟩ := hholds
  obtain ⟨-, -, hcomponents⟩ := extract_eq_ok_iff.mp hextract
  rw [part?_components ⟨fields, rfl, hheld⟩] at hcomponents
  exact (Option.some.inj hcomponents).symm

/-- No two sections of a configuration are for one component, and no binding of a section finds an
option in conflict. -/
def FreeOfConflicts (config : Config) : Prop :=
  (∀ previous id, config.sections ≠ .error (.validation (.sameComponent previous id))) ∧
    ∀ components, config.sections = .ok components → ∀ component ∈ components,
      ∀ (binder : Binder) (schema : Schema) (resolver : Resolver) (owner option : String)
        (keys : List String),
        (binder.bind schema component.rawValues resolver).value ≠
          .error (.conflictingKeys owner option keys)

theorem freeOfConflicts_of_extract {layer : Layer} {merged : List (String × Datum)}
    (hholds : layer.Holds merged) (hneat : Neat merged) {config : Config}
    (hextract : Loader.extract layer = .ok config) : FreeOfConflicts config := by
  have hcomponents := components_of_extract hholds hextract
  have hread : Neat config.components := hcomponents ▸ neat_settledFields hneat
  obtain ⟨hdifferent, honce⟩ := config.sections_of_neat hread
  refine ⟨hdifferent, fun components hsections component hmem binder schema resolver ↦ ?_⟩
  exact Binder.bind_ne_conflicting (honce components hsections component hmem) binder schema
    resolver

/-- Tidy sources that are merged one after another, in any number, hold a table of sections. There
is one section for all spellings of an id, spelled as in the first source that has it, and in each
section one key for all spellings of an option. Every option that a source sets is there, in the
spelling of the first source that sets it and with the value of the last one. So in a configuration
that is read from them no two sections are for one component, and no binding of a section finds an
option in conflict. -/
theorem merged_sources {sources : List (List (String × Datum))}
    (hsources : ∀ source ∈ sources, TidySource source) :
    ∃ merged, (mergeAll sources).Holds merged ∧ Neat merged ∧
      (∀ id, (find? id merged).map (·.1) =
        sources.findSome? fun source ↦ (find? id (sections (.ok source))).map (·.1)) ∧
      (∀ id key, setting? id key merged =
        firstAndLast (sources.filterMap fun source ↦ setting? id key (sections (.ok source)))) ∧
      ∀ config, Loader.extract (mergeAll sources) = .ok config →
        (∀ previous id, config.sections ≠ .error (.validation (.sameComponent previous id))) ∧
        ∀ components, config.sections = .ok components → ∀ component ∈ components,
          ∀ (binder : Binder) (schema : Schema) (resolver : Resolver) (owner option : String)
            (keys : List String),
            (binder.bind schema component.rawValues resolver).value ≠
              .error (.conflictingKeys owner option keys) := by
  obtain ⟨merged, hholds, hneat, hids, hsettings⟩ := mergeAll_holds hsources
  exact ⟨merged, hholds, hneat, hids, hsettings,
    fun config hextract ↦ freeOfConflicts_of_extract hholds hneat hextract⟩

/-- A file and the environment spell a section in their own ways. The values of the environment
stand, in the spellings of the file. -/
theorem merged_sources_kinesis :
    let file : List (String × Datum) := [(componentsKey, .table [("aws2-kinesis", .table
      [("maxResultsPerRequest", .int 1), ("proxy", .table [("host", .text "proxy.local")])])])]
    let environment : List (String × Datum) := [(componentsKey, .table [("aws2_kinesis", .table
      [("max_results_per_request", .text "25"), ("proxy_host", .text "proxy.prod")])])]
    TidySource file ∧ TidySource environment ∧
      ∃ merged, (mergeAll [file, environment]).Holds merged ∧ Neat merged ∧
        (find? "Aws2Kinesis" merged).map (·.1) = some "aws2-kinesis" ∧
        setting? "Aws2Kinesis" "PROXY_HOST" merged = some ("proxy.host", .text "proxy.prod") := by
  intro file environment
  have hfile : TidySource file := by
    refine tidySource_of_sections ⟨by decide +kernel, fun given hgiven ↦ ?_⟩
    obtain rfl := List.mem_singleton.mp hgiven
    exact ⟨_, rfl, by decide +kernel⟩
  have henvironment : TidySource environment := by
    refine tidySource_of_sections ⟨by decide +kernel, fun given hgiven ↦ ?_⟩
    obtain rfl := List.mem_singleton.mp hgiven
    exact ⟨_, rfl, by decide +kernel⟩
  have hsources : ∀ source ∈ [file, environment], TidySource source := by
    simp [hfile, henvironment]
  obtain ⟨merged, hholds, hneat, hids, hsettings, -⟩ := merged_sources hsources
  refine ⟨hfile, henvironment, merged, hholds, hneat, ?_, ?_⟩
  · rw [hids]
    decide +kernel
  · rw [hsettings]
    decide +kernel

/-- The same of the sources that a loader merges, those of its files, those of the environment if it
reads that, and the values that the program sets. If all of them are tidy, a configuration that is
loaded has what they set, in the first spelling and with the last value, and no section or option in
conflict. -/
theorem loaded_sources {around : Surroundings} {loader : Loader} {config : Config}
    {files : List (List (String × Datum))} {general components overrides : List (String × Datum)}
    (hfiles : (loader.mergeFiles around).value = .ok (mergeAll files))
    (hgeneral : around.environment.generalLayer = .ok general)
    (hnone : Fields.get? componentsKey general = none)
    (hcomponents : around.environment.componentLayer = .ok components)
    (hoverrides : loader.overrides = .ok overrides) {sources : List (List (String × Datum))}
    (heq : sources =
      files ++ (if loader.usesEnvironment then [general, components] else []) ++ [overrides])
    (hsources : ∀ source ∈ sources, TidySource source)
    (hload : (loader.load around).value = .ok config) :
    ∃ merged, config.components = Datum.settledFields merged ∧ Neat merged ∧
      (∀ id, (find? id merged).map (·.1) =
        sources.findSome? fun source ↦ (find? id (sections (.ok source))).map (·.1)) ∧
      (∀ id key, setting? id key merged =
        firstAndLast (sources.filterMap fun source ↦ setting? id key (sections (.ok source)))) ∧
      FreeOfConflicts config := by
  have hextract : Loader.extract (mergeAll sources) = .ok config := by
    rw [heq, ← mergeRest_mergeAll hgeneral hnone hcomponents hoverrides, ← hload]
    change _ = ((loader.mergeFiles around).value.bind fun merged ↦ _)
    rw [hfiles]
    rfl
  obtain ⟨merged, hholds, hneat, hids, hsettings⟩ := mergeAll_holds hsources
  exact ⟨merged, components_of_extract hholds hextract, hneat, hids, hsettings,
    freeOfConflicts_of_extract hholds hneat hextract⟩

end Connectors.Layer
