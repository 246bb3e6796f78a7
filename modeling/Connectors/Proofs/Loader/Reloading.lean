import Connectors.Proofs.Config.Written
import Connectors.Proofs.Environment.Misspelt
import Connectors.Proofs.Loader.Overrides
import Connectors.Proofs.Loader.Verbatim
import Connectors.Proofs.Sections.Relaxing
import Connectors.Proofs.Sections.Stable

/-!
# Loading a configuration again

A loader that finds no file, does not read the environment and is given one configuration
(`Loader.Bare`) loads this configuration with its sections folded, if they can be
(`Loader.Bare.load_merge`). Folded sections stay as they are, so what it loads comes back unchanged
when it is loaded once more.

The sections of every loaded configuration are folded (`Loader.folded_of_load`): each source is
folded before it is merged, and folded sections over folded ones are folded
(`Layer.folded_relaxedMerge`). Only a misspelt variable of the environment sets sections that were
not folded.

`Loader.reload` puts this together. Two leaves of a section collide by their paths, and these are
not in all sections their dotted keys (`Loader.reload_nameless`).
-/

set_option autoImplicit false
set_option relaxedAutoImplicit false

namespace Connectors

open Relaxed (Folded Repeats foldAll relax)

/-! ### Folded sections in layers -/

namespace Layer

variable {known fields source : List (String × Datum)}

/-- The sections of a layer are the table under their key, if there is one. -/
theorem sections_ok (fields : List (String × Datum)) :
    sections (.ok fields) = Relaxed.knownTable fields componentsKey := by
  simp only [sections, Relaxed.knownTable]
  cases Fields.get? componentsKey fields with
  | none => rfl
  | some value => cases value <;> rfl

theorem folded_united {held : Option Datum} {value : Datum}
    (hheld : Folded ((held.map Datum.fields).getD [])) (hvalue : Folded value.fields) :
    Folded (Datum.united held value).fields := by
  cases value with
  | table given =>
    cases held with
    | none => exact hvalue
    | some earlier =>
      cases earlier with
      | table sections => exact hheld.overlayFields hvalue
      | _ => exact hvalue
  | _ => cases held <;> exact Relaxed.folded_nil

/-- Folded sections over folded ones. -/
theorem folded_overlayFields (hfields : Folded (sections (.ok fields)))
    (hordered : Fields.Ordered source) (hsource : Folded (sections (.ok source))) :
    Folded (sections (.ok (Datum.overlayFields fields source))) := by
  rw [sections_ok, Relaxed.knownTable] at *
  rw [Datum.get?_overlayFields hordered.nodup_names]
  cases hget : Fields.get? componentsKey source with
  | none => exact hfields
  | some value =>
    rw [hget] at hsource
    exact folded_united hfields hsource

/-- The sections of a source are folded when it was relaxed. -/
theorem folded_relaxed {relaxedSource : List (String × Datum)} (hordered : Fields.Ordered source)
    (hrelaxed : relaxed known (.ok source) = .ok relaxedSource) :
    Fields.Ordered relaxedSource ∧ Folded (sections (.ok relaxedSource)) := by
  obtain ⟨given, relaxedGiven, hget, hrelax, rfl⟩ | ⟨hnone, rfl⟩ := relaxed_cases hrelaxed
  · refine ⟨Fields.ordered_put hordered, ?_⟩
    rw [sections_eq (Fields.get?_put_self ..)]
    exact Relaxed.folded_of_relax hrelax
  · have hsections : sections (.ok source) = [] := by
      simp only [sections]
    exact ⟨hordered, hsections ▸ Relaxed.folded_nil⟩

/-- A relaxed source keeps the sections of a layer folded. -/
theorem folded_relaxedMerge {earlier later : Layer} (hearlier : Folded earlier.sections)
    (hlater : ∀ source, later = .ok source → Fields.Ordered source) :
    Folded (earlier.relaxedMerge later).sections := by
  cases hmerge : earlier.relaxedMerge later with
  | error fault => exact Relaxed.folded_nil
  | ok merged =>
    obtain ⟨⟨fields, rfl⟩, source, rfl⟩ := eq_ok_of_relaxedMerge hmerge
    obtain ⟨given, hrelaxed, rfl⟩ := exists_of_relaxedMerge hmerge
    obtain ⟨hordered, hgiven⟩ := folded_relaxed (hlater source rfl) hrelaxed
    exact folded_overlayFields hearlier hordered hgiven

/-- What is read from a layer as components are its sections. -/
theorem components_of_sections {config : Config}
    (hextract : Loader.extract (.ok fields) = .ok config) :
    config.components = Datum.settledFields (sections (.ok fields)) := by
  obtain ⟨-, -, hcomponents⟩ := extract_eq_ok_iff.mp hextract
  simp only [Datum.part?] at hcomponents
  rw [sections_ok, Relaxed.knownTable, componentsKey]
  cases hget : Fields.get? "components" fields with
  | none =>
    rw [hget] at hcomponents
    exact (Option.some.inj hcomponents).symm
  | some value =>
    rw [hget] at hcomponents
    cases value with
    | table given => exact (Option.some.inj hcomponents).symm
    | _ => cases hcomponents

end Layer

namespace Loader

variable {around : Surroundings} {loader : Loader} {config : Config}

/-! ### Loaded configurations -/

theorem folded_mergeFiles {files : Layer} (hfiles : (loader.mergeFiles around).value = .ok files) :
    Folded files.sections := by
  rw [mergeFiles_eq_ok hfiles]
  refine List.foldlRecOn (motive := fun merged : Layer ↦ Folded merged.sections) _ _
    Relaxed.folded_nil fun merged hmerged path _ ↦ ?_
  exact Layer.folded_relaxedMerge hmerged fun source ↦ ordered_fileLayer

theorem folded_beneath {files : Layer} (hfiles : Folded files.sections)
    (hspelt : loader.usesEnvironment = true → around.environment.Spelt) :
    Folded (loader.beneath around files).sections := by
  unfold beneath
  split
  · next huses =>
    obtain ⟨general, hgeneral, hordered, -⟩ := Environment.generalLayer_names around.environment
    have hnone := (Environment.get?_components_eq_none_iff hgeneral).mpr (hspelt huses)
    rw [hgeneral]
    refine Layer.folded_relaxedMerge ?_ fun components hcomponents ↦ ?_
    · rw [Environment.sections_merge hordered hnone]
      exact hfiles
    · obtain ⟨sections, -, -, rfl | rfl⟩ := Environment.componentLayer_cases hcomponents
      · exact List.Pairwise.nil
      · exact List.pairwise_singleton _ _
  · exact hfiles

theorem ordered_calls (calls : List Call) :
    ∀ source,
      calls.foldl (fun (layer : Layer) call ↦ layer.merge call.layer) (.ok []) = .ok source →
        Fields.Ordered source := by
  refine List.foldlRecOn
    (motive := fun layer : Layer ↦ ∀ fields, layer = .ok fields → Fields.Ordered fields) _ _
    (fun fields hfields ↦ ?_) fun layer hlayer call _ fields hfields ↦ ?_
  · obtain rfl := Except.ok.inj hfields
    exact List.Pairwise.nil
  · cases layer with
    | error fault => cases hcall : call.layer <;> simp [Layer.merge, hcall] at hfields
    | ok earlier =>
      cases hcall : call.layer with
      | error fault => simp [Layer.merge, hcall] at hfields
      | ok later =>
        obtain rfl : Datum.overlayFields earlier later = fields := by
          simpa [Layer.merge, hcall] using hfields
        exact Datum.ordered_overlayFields (hlayer earlier rfl)

/-- The components of a loaded configuration are folded, if no variable for components is
misspelt. -/
theorem folded_of_load (hstart : loader.overrides = .ok []) {calls : List Call}
    (hspelt : loader.usesEnvironment = true → around.environment.Spelt)
    (hload : ((loader.calls calls).load around).value = .ok config) : Folded config.components := by
  rw [load_calls around hstart] at hload
  cases hfiles : (loader.mergeFiles around).value with
  | error error => simp [hfiles, Except.bind] at hload
  | ok files =>
    simp only [hfiles, Except.bind] at hload
    have hfolded := Layer.folded_relaxedMerge (folded_beneath (folded_mergeFiles hfiles) hspelt)
      (ordered_calls calls)
    generalize (loader.beneath around files).relaxedMerge _ = layer at hload hfolded
    cases layer with
    | error fault => cases hload
    | ok fields =>
      rw [Layer.components_of_sections hload]
      exact hfolded.settledFields

/-! ### A loader with nothing else -/

/-- A loader that finds no file and does not read the environment, and for which no value was
set. -/
structure Bare (around : Surroundings) (loader : Loader) : Prop where
  /-- No file is named. -/
  file : loader.file = none
  /-- No file is found. -/
  missing : ∀ path ∈ loader.wanted around, ∀ text, around.files.find path ≠ .file text
  /-- The environment is not read. -/
  environment : loader.usesEnvironment = false
  /-- No value was set. -/
  overrides : loader.overrides = .ok []

theorem mem_of_mem_filesFound {present : String → Bool} {positions : List (String × String)}
    {path : String} (hpath : path ∈ (filesFound present positions).1) :
    path ∈ positions.flatMap fun position ↦ [position.1, position.2] := by
  induction positions with
  | nil => exact hpath
  | cons position rest ih =>
    obtain ⟨variant, base⟩ := position
    have hfirst : path ∈ (if present variant then [variant] else []) → path = variant := by
      split <;> simp
    rw [filesFound] at hpath
    simp only [List.flatMap_cons, List.mem_append, List.mem_cons]
    split at hpath
    · rcases List.mem_append.mp hpath with hvariant | hbase
      · exact .inl (.inl (hfirst hvariant))
      · exact .inl (.inr (.inl (List.mem_singleton.mp hbase)))
    · rcases List.mem_append.mp hpath with hvariant | hothers
      · exact .inl (.inl (hfirst hvariant))
      · exact .inr (ih hothers)

theorem Bare.mergeFiles (hbare : loader.Bare around) :
    (loader.mergeFiles around).value = .ok (.ok (Config.fields {})) := by
  have hempty : ∀ path ∈ loader.filesRead around, fileLayer around.files path = .ok [] := by
    intro path hpath
    have hwanted : path ∈ loader.wanted around := by
      rw [wanted, hbare.file]
      rw [filesRead, hbare.file] at hpath
      exact mem_of_mem_filesFound hpath
    unfold fileLayer
    split
    · next text hfile => exact absurd hfile (hbare.missing path hwanted text)
    · rfl
  have hlayer : (loader.mergeFiles around).value =
      .ok ((loader.filesRead around).foldl
        (fun merged path ↦ merged.relaxedMerge (fileLayer around.files path))
        (.ok (Config.fields {}))) := by
    rw [Loader.mergeFiles, filesRead, hbare.file]
  rw [hlayer]
  refine congrArg Except.ok ?_
  refine List.foldlRecOn (motive := fun merged : Layer ↦ merged = .ok (Config.fields {})) _ _ rfl
    fun merged hmerged path hpath ↦ ?_
  rw [hmerged, hempty path hpath]
  rfl

/-- A configuration with its sections folded can be there if the configuration can. -/
theorem proper_of_foldAll {folded : List (String × Datum)} (hproper : config.Proper)
    (hfolded : foldAll config.components = .ok folded) :
    Config.Proper { config with components := folded } :=
  ⟨hproper.filters, hproper.limit, Relaxed.ordered_foldAll hfolded hproper.ordered,
    Relaxed.settledFields_foldAll hfolded hproper.finite⟩

/-- Where nothing else is set, loading a configuration folds its sections and leaves the rest as it
is. -/
theorem Bare.load_merge (hbare : loader.Bare around) (hproper : config.Proper) :
    ((loader.merge config).load around).value =
      match foldAll config.components with
      | .ok folded => .ok { config with components := folded }
      | .error fault => .error (.parse fault) := by
  have hvalue : ((loader.merge config).load around).value =
      extract (Layer.relaxedMerge (.ok (Config.fields {})) (.ok config.fields)) := by
    have hlater : Layer.merge (.ok []) (.ok config.fields) = .ok config.fields :=
      congrArg Except.ok (Datum.overlayFields_nil (Fields.ordered_ofList _))
    change ((loader.calls [.merge config]).load around).value = _
    rw [load_calls around hbare.overrides, hbare.mergeFiles, List.foldl_cons, List.foldl_nil,
      Call.layer, hlater]
    simp only [Except.bind, beneath, hbare.environment, Bool.false_eq_true, if_false]
  rw [hvalue]
  have hget : Fields.get? componentsKey config.fields = some (.table config.components) := by
    rw [Config.fields_eq, Fields.get?_ofList config.nodup_names_members]
    rfl
  have hrelax := Relaxed.relax_nil hproper.ordered
  cases hfolded : foldAll config.components with
  | error fault =>
    exact congrArg extract
      (Layer.relaxedMerge_of_fault Layer.holds_defaults hget (hrelax.trans hfolded))
  | ok folded =>
    have hproperFolded := proper_of_foldAll hproper hfolded
    have hrelaxed : Layer.relaxed [] (.ok config.fields) =
        .ok (Config.fields { config with components := folded }) := by
      simp only [Layer.relaxed, hget, hrelax, hfolded]
      exact congrArg Except.ok (config.put_components folded)
    have hdefaults : Layer.sections (.ok (Config.fields {})) = [] :=
      Layer.sections_of_holds Layer.holds_defaults
    rw [Layer.relaxedMerge, hdefaults, hrelaxed, Layer.merge,
      Config.overlayFields_defaults hproperFolded]
    exact Config.extract_fields hproperFolded

/-- A configuration whose sections are folded is loaded as it is. -/
theorem Bare.load_folded (hbare : loader.Bare around) (hproper : config.Proper)
    (hfolded : Folded config.components) :
    ((loader.merge config).load around).value = .ok config := by
  rw [hbare.load_merge hproper, hfolded.foldAll_eq]

/-- A configuration whose sections cannot all be folded is refused for a path that two leaves
have. -/
theorem Bare.load_merge_eq_error (hbare : loader.Bare around) (hproper : config.Proper)
    {error : ConfigError} (hload : ((loader.merge config).load around).value = .error error) :
    ∃ id fields path, (id, .table fields) ∈ config.components ∧
      2 ≤ Relaxed.occurrences path (Datum.fieldLeaves "" fields) ∧
        error = .parse (.setTwice id path) := by
  rw [hbare.load_merge hproper] at hload
  cases hfolds : foldAll config.components with
  | ok folded => simp [hfolds] at hload
  | error fault =>
    obtain rfl : ConfigError.parse fault = error := by simpa [hfolds] using hload
    obtain ⟨id, fields, path, hgiven, htwice, rfl⟩ :=
      Relaxed.relax_eq_error ((Relaxed.relax_nil hproper.ordered).trans hfolds)
    exact ⟨id, fields, path, hgiven, htwice, rfl⟩

/-- What comes out where the sections can be folded. -/
theorem Bare.load_merge_eq_ok (hbare : loader.Bare around) (hproper : config.Proper)
    {loaded : Config} (hload : ((loader.merge config).load around).value = .ok loaded) :
    (∀ given ∈ config.components, ¬Repeats given) ∧ loaded.Proper ∧ Folded loaded.components ∧
      ∃ folded, loaded = { config with components := folded } ∧
        List.Forall₂ (fun given result ↦ result.1 = given.1 ∧
          Relaxed.SectionFolds given.1 given.2 (.ok result.2)) config.components folded := by
  rw [hbare.load_merge hproper] at hload
  cases hfolded : foldAll config.components with
  | error fault => simp [hfolded] at hload
  | ok folded =>
    obtain rfl : { config with components := folded } = loaded := by simpa [hfolded] using hload
    have hfolds := Relaxed.forall₂_of_foldAll hfolded
    have honce := hfolds.imp fun given result hfold ↦
      And.intro (Relaxed.not_repeats_of_fold hfold.2) hfold
    refine ⟨((List.forall₂_and_left _ _).mp honce).1, proper_of_foldAll hproper hfolded,
      Relaxed.folded_foldAll hfolded hproper.ordered, folded, rfl, ?_⟩
    refine hfolds.imp fun given result hfold ↦ ⟨hfold.1, ?_⟩
    exact hfold.2 ▸ Relaxed.fold_cases given.1 given.2

/-- Loading a configuration where nothing else is set. It fails exactly for a section in which two
leaves have one path, and the error tells the section and the path. Otherwise the configuration
comes back with each table among its sections folded and with everything else as it was, and it
comes back as it is when it is loaded once more. So does every configuration that a loader made of
files, the environment and values set by a program, if no variable for components is misspelt. The
path of a leaf has the normal form of its dotted key, and is the dotted key itself in a section
without a table under the empty key. -/
theorem reload (hbare : loader.Bare around) (hproper : config.Proper) :
    ((∃ error, ((loader.merge config).load around).value = .error error) ↔
        ∃ given ∈ config.components, Repeats given) ∧
      (∀ error, ((loader.merge config).load around).value = .error error →
        ∃ id fields path, (id, .table fields) ∈ config.components ∧
          2 ≤ Relaxed.occurrences path (Datum.fieldLeaves "" fields) ∧
          error = .parse (.setTwice id path) ∧
          error.message = "Failed to load configuration: " ++
            ("components." ++ id ++ ": key '" ++ path ++ "' is set twice")) ∧
      (∀ loaded, ((loader.merge config).load around).value = .ok loaded →
        (∃ folded, loaded = { config with components := folded } ∧
          List.Forall₂ (fun given result ↦ result.1 = given.1 ∧
            Relaxed.SectionFolds given.1 given.2 (.ok result.2)) config.components folded) ∧
          ((loader.merge loaded).load around).value = .ok loaded) ∧
      (∀ (maker : Loader) (calls : List Call) (elsewhere : Surroundings), maker.overrides = .ok [] →
        (maker.usesEnvironment = true → elsewhere.environment.Spelt) →
        ((maker.calls calls).load elsewhere).value = .ok config →
        ((loader.merge config).load around).value = .ok config) ∧
      ∀ given ∈ config.components, ∀ fields, given.2 = .table fields →
        List.Forall₂ Datum.SameLeaf (Datum.dottedFields "" fields) (Datum.fieldLeaves "" fields) ∧
          ((∀ field ∈ fields, field.1 = "" → field.2.IsLeaf) →
            Datum.dottedFields "" fields = Datum.fieldLeaves "" fields) := by
  refine ⟨⟨?_, ?_⟩, ?_, ?_, ?_, fun _ _ fields _ ↦
    ⟨Datum.sameLeaf_dottedFields rfl fields, Datum.dottedFields_of_named⟩⟩
  · rintro ⟨error, hload⟩
    obtain ⟨id, fields, path, hgiven, htwice, -⟩ := hbare.load_merge_eq_error hproper hload
    exact ⟨_, hgiven, fields, rfl, Relaxed.not_nodup_of_occurrences htwice⟩
  · rintro ⟨given, hgiven, hrepeats⟩
    cases hload : ((loader.merge config).load around).value with
    | error error => exact ⟨error, rfl⟩
    | ok loaded => exact absurd hrepeats ((hbare.load_merge_eq_ok hproper hload).1 given hgiven)
  · intro error hload
    obtain ⟨id, fields, path, hgiven, htwice, rfl⟩ := hbare.load_merge_eq_error hproper hload
    exact ⟨id, fields, path, hgiven, htwice, rfl, rfl⟩
  · intro loaded hload
    obtain ⟨-, hloaded, hfolded, hresult⟩ := hbare.load_merge_eq_ok hproper hload
    exact ⟨hresult, hbare.load_folded hloaded hfolded⟩
  · intro maker calls elsewhere hstart hspelt hload
    exact hbare.load_folded hproper (folded_of_load hstart hspelt hload)

/-- A configuration with a table in a section, and one that was made of a file and a variable. With
a key that is set once in a table and once with a point, the first one is refused. -/
theorem reload_orders :
    let loader : Loader := { usesEnvironment := false }
    let proxy : String × Datum := ("proxy", .table [("host", .text "mq.prod"), ("port", .int 5671)])
    let config : Config := {
      logging := { level := .debug, filters := [("amqp", .warn)] }
      binding := { activationTimeout := some 5000 }
      components := [("Orders", .table [("enabled", .bool true), proxy]), ("region", .text "eu")] }
    let loaded : Config := { config with
      components := [("Orders", .table [("enabled", .bool true), ("proxy.host", .text "mq.prod"),
        ("proxy.port", .int 5671)]), ("region", .text "eu")] }
    let refused : Config := { config with
      components := [("Orders", .table [proxy, ("proxy.port", .int 5672)])] }
    let elsewhere : Surroundings := {
      files := .ofList [("conflux.toml", "[components.Orders.proxy]\nhost = \"mq.prod\"\n")]
      environment := [("CONFLUX_COMPONENTS__ORDERS__PROXY_PORT", "5671")] }
    let made : Config := {
      components := [("Orders", .table
        [("proxy.host", .text "mq.prod"), ("proxy_port", .text "5671")])] }
    loader.Bare {} ∧ config.Proper ∧ ((loader.merge config).load {}).value = .ok loaded ∧
      ((loader.merge loaded).load {}).value = .ok loaded ∧
      refused.Proper ∧ (∃ error, ((loader.merge refused).load {}).value = .error error) ∧
      elsewhere.environment.Spelt ∧ (({} : Loader).load elsewhere).value = .ok made ∧
      made.Proper ∧ ((loader.merge made).load {}).value = .ok made := by
  intro loader proxy config loaded refused elsewhere made
  have hmissing : ∀ path ∈ loader.wanted {}, ({} : Surroundings).files.find path = .missing := by
    decide +kernel
  have hbare : loader.Bare {} := by
    refine ⟨rfl, fun path hpath text hfile ↦ ?_, rfl, rfl⟩
    cases (hmissing path hpath).symm.trans hfile
  have hproper : config.Proper := by decide +kernel
  have hrefused : refused.Proper := by decide +kernel
  have hmade : made.Proper := by decide +kernel
  have hload : ((loader.merge config).load {}).value = .ok loaded := by decide +kernel
  have helsewhere : (({} : Loader).load elsewhere).value = .ok made := by decide +kernel
  have hspelt : elsewhere.environment.Spelt := by decide +kernel
  have hrepeats : Repeats ("Orders", .table [proxy, ("proxy.port", .int 5672)]) :=
    ⟨_, rfl, by decide +kernel⟩
  obtain ⟨-, -, hreload, -⟩ := reload hbare hproper
  obtain ⟨hfails, -⟩ := reload hbare hrefused
  obtain ⟨-, -, -, hsame, -⟩ := reload hbare hmade
  exact ⟨hbare, hproper, hload, (hreload loaded hload).2, hrefused,
    hfails.mpr ⟨_, List.mem_singleton.mpr rfl, hrepeats⟩, hspelt, helsewhere, hmade,
    hsame {} [] elsewhere rfl (fun _ ↦ hspelt) helsewhere⟩

/-- A table under the empty key at the top of a section. Two leaves whose dotted keys are `.host`
and `host` keep a configuration from being loaded, and two whose dotted key is `.host` do not. -/
theorem reload_nameless :
    let apart : List (String × Datum) :=
      [("", .table [("host", .text "mq.local")]), ("host", .text "mq.prod")]
    let alike : List (String × Datum) :=
      [("", .table [("host", .text "mq.local")]), (".host", .text "mq.prod")]
    let loader : Loader := { usesEnvironment := false }
    Fields.names (Datum.dottedFields "" apart) = [".host", "host"] ∧
      ((loader.merge { components := [("orders", .table apart)] }).load {}).value =
        .error (.parse (.setTwice "orders" "host")) ∧
      Fields.names (Datum.dottedFields "" alike) = [".host", ".host"] ∧
      ((loader.merge { components := [("orders", .table alike)] }).load {}).value = .ok {
        components :=
          [("orders", .table [(".host", .text "mq.prod"), ("host", .text "mq.local")])] } := by
  decide +kernel

end Loader

end Connectors
