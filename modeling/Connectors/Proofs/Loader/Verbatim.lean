import Connectors.Proofs.Binding.Single
import Connectors.Proofs.Environment.OneVariable
import Connectors.Proofs.Loader.Elsewhere
import Connectors.Proofs.Loader.OneOption
import Connectors.Proofs.Sections.Readable

/-!
# The text of a variable

An option that a variable of the environment sets is bound from the text of the variable as it is,
whatever the files say about it and however they spell it (`Loader.variable_verbatim`). The variable
is the only one for components, no value set by the program is for its component, and the files
spell each id and each option in one way (`Layer.TidySections`). That the rest is valid is said of
the configuration that is loaded without the variable and stripped of the option.

Two underscores in a name are a step, from the left, and a variable with an empty step on its path
sets nothing: a name with more than two underscores in a row is not read as one would think
(`Loader.variable_skipped`).
-/

set_option autoImplicit false
set_option relaxedAutoImplicit false

namespace Connectors

open Spelling

/-! ### Files -/

theorem Toml.Tree.ordered_entriesDatum (entries : List (String × Toml.Tree)) :
    Fields.Ordered (Toml.Tree.entriesDatum entries) := by
  induction entries with
  | nil =>
    rw [entriesDatum]
    exact List.Pairwise.nil
  | cons entry rest ih =>
    rw [entriesDatum]
    exact Fields.ordered_put ih

/-- The sections of a source are in a table and tidy. -/
structure Layer.TidySections (source : List (String × Datum)) : Prop where
  /-- The sections are in a table. -/
  table : ∀ value, Fields.get? componentsKey source = some value →
    ∃ sections, value = .table sections
  /-- They are tidy. -/
  tidy : Relaxed.Tidy (Layer.sections (.ok source))

namespace Loader

open Layer (TidySections TidySource SparesComponent AlikeBut Holds)
open Relaxed ComponentSection

variable {around : Surroundings} {loader : Loader} {fields : List (String × Datum)}

/-- The paths of the files that a loader reads, in order. -/
def filesRead (around : Surroundings) (loader : Loader) : List String :=
  match loader.file with
  | some path => [path]
  | none => (filesFound around.files.has (positions loader.profile (loader.places around))).1

theorem mergeFiles_eq_ok {files : Layer} (hfiles : (loader.mergeFiles around).value = .ok files) :
    files = (loader.filesRead around).foldl
      (fun merged path ↦ merged.relaxedMerge (fileLayer around.files path))
      (.ok (Config.fields {})) := by
  rw [mergeFiles] at hfiles
  rw [filesRead]
  cases hfile : loader.file with
  | none =>
    simp only [hfile] at hfiles
    exact (Except.ok.inj hfiles).symm
  | some path =>
    simp only [hfile] at hfiles
    split_ifs at hfiles
    exact (Except.ok.inj hfiles).symm

theorem ordered_fileLayer {files : FileTree} {path : String} {source : List (String × Datum)}
    (hsource : fileLayer files path = .ok source) : Fields.Ordered source := by
  rw [fileLayer] at hsource
  split at hsource
  · rename_i text _
    cases hparse : Toml.parse? text with
    | none => simp [hparse] at hsource
    | some entries =>
      obtain rfl : entries = source := by simpa [hparse] using hsource
      rw [Toml.parse?, Option.map_eq_some_iff] at hparse
      obtain ⟨⟨progress, _⟩, -, rfl⟩ := hparse
      exact Toml.Tree.ordered_entriesDatum progress.entries
  · obtain rfl := Except.ok.inj hsource
    exact List.Pairwise.nil

/-- Tidy files that can be put over each other have neat sections together. -/
theorem exists_neat {files : FileTree} {paths : List String}
    (htidy : ∀ path ∈ paths, ∀ source, fileLayer files path = .ok source → TidySections source)
    (hmerge : paths.foldl (fun (merged : Layer) path ↦ merged.relaxedMerge (fileLayer files path))
      (.ok (Config.fields {})) = .ok fields) :
    ∃ known, Holds (.ok fields) known ∧ Neat known := by
  induction paths using List.reverseRecOn generalizing fields with
  | nil =>
    obtain rfl := Except.ok.inj hmerge
    exact ⟨[], Layer.holds_defaults, List.Pairwise.nil, List.nodup_nil, by simp⟩
  | append_singleton paths path ih =>
    rw [List.foldl_append, List.foldl_cons, List.foldl_nil] at hmerge
    obtain ⟨⟨earlier, hearlier⟩, source, hsource⟩ := Layer.eq_ok_of_relaxedMerge hmerge
    obtain ⟨known, hholds, hneat⟩ := ih (fun other hother ↦
      htidy other (List.mem_append_left _ hother)) hearlier
    have hsections := htidy path (by simp) source hsource
    have hsourceTidy : TidySource source :=
      ⟨ordered_fileLayer hsource, hsections.table, hsections.tidy⟩
    obtain ⟨merged, hmerged, hmergedNeat, -⟩ := Layer.relaxedMerge_holds hholds hneat hsourceTidy
    rw [hearlier, hsource] at hmerge
    exact ⟨merged, hmerge ▸ hmerged, hmergedNeat⟩

/-! ### The configuration with the option and without it -/

section Alike

variable {id key : String} {known merged others : List (String × Datum)} {config : Config}

/-- Sections that are alike but for one component make a valid configuration if the others do and
the section of the component can be read. -/
theorem validate_of_alike (hvalid : config.ValidBut id key)
    (hconfig : config.components = Datum.settledFields others) (hordered : Fields.Ordered merged)
    (helsewhere : elsewhere id merged = elsewhere id others)
    (hwithin : ∀ given ∈ merged, Key.normal given.1 = Key.normal id → given ∈ known)
    (hneat : Neat known)
    (hread : ∀ name entries, (name, .table entries) ∈ known → Key.normal name = Key.normal id →
      (Text.trim name).isEmpty = false ∧ ∀ entry ∈ entries, Readable (entry.1, entry.2.settled)) :
    Config.validate { config with components := Datum.settledFields merged } = .ok () := by
  have houtside : ∀ given ∈ merged, Key.normal given.1 ≠ Key.normal id → given ∈ others :=
    fun given hgiven hname ↦
      (mem_elsewhere_iff.mp (helsewhere ▸ mem_elsewhere_iff.mpr ⟨hgiven, hname⟩)).1
  have honceOthers : Once others := by
    have honce := hvalid.once
    rwa [hconfig, settledFields_eq, Once, List.map_map] at honce
  have honce : Once merged := by
    refine once_of_onceFor hordered.nodup_names fun name ↦ ?_
    intro first hfirst second hsecond hone htwo
    by_cases hname : Key.normal name = Key.normal id
    · exact hneat.once.onceFor name first (hwithin first hfirst (hone.trans hname)) second
        (hwithin second hsecond (htwo.trans hname)) hone htwo
    · exact honceOthers.onceFor name first (houtside first hfirst (hone.trans_ne hname)) second
        (houtside second hsecond (htwo.trans_ne hname)) hone htwo
  refine Config.validate_eq_ok_iff.mpr ⟨hvalid.logging, hvalid.binding, ?_⟩
  refine exists_readAll_iff.mpr ⟨?_, fun given hgiven ↦ ?_⟩
  · rw [settledFields_eq, Once, List.map_map]
    exact honce
  · rw [settledFields_eq] at hgiven
    obtain ⟨⟨name, value⟩, hmem, rfl⟩ := List.mem_map.mp hgiven
    by_cases hname : Key.normal name = Key.normal id
    · have hknown := hwithin _ hmem hname
      obtain ⟨entries, hvalue, -⟩ := hneat.flat _ hknown
      obtain rfl : value = .table entries := hvalue
      obtain ⟨hblank, hentries⟩ := hread name entries hknown hname
      refine ⟨hblank, ?_⟩
      simp only [Datum.settled, exists_ofDatum_iff, settledFields_eq, List.forall_mem_map]
      exact hentries
    · have hother : (name, value.settled) ∈ config.components := by
        rw [hconfig, settledFields_eq]
        exact List.mem_map.mpr ⟨_, houtside _ hmem hname, rfl⟩
      exact ⟨hvalid.ids _ hother, hvalid.others _ hother hname⟩

/-- The section of a component in which one option was set can be read, if what was there for the
other options can be. -/
theorem readable_of_setOver {sid text : String} (hvalid : config.ValidBut id key)
    (hheld : ∀ given ∈ known, Key.normal given.1 = Key.normal id →
      (given.1, given.2.settled) ∈ config.components)
    (hset : SetOver id key (.text text) sid known merged) (hblank : (Text.trim sid).isEmpty = false)
    (hswitch : Key.normal key ≠ Key.normal switchKey) {name : String}
    {entries : List (String × Datum)} (hmem : (name, .table entries) ∈ merged)
    (hname : Key.normal name = Key.normal id) :
    (Text.trim name).isEmpty = false ∧ ∀ entry ∈ entries, Readable (entry.1, entry.2.settled) := by
  constructor
  · rcases hset.ids _ hmem hname with hnew | hold
    · obtain rfl : name = sid := hnew
      exact hblank
    · obtain ⟨value, hvalue⟩ := Fields.mem_names_iff.mp hold
      exact hvalid.ids (name, value.settled) (hheld (name, value) hvalue hname)
  · intro entry hentry
    rcases hset.entries name entries hmem hname entry hentry with
      ⟨hkey, hvalue⟩ | ⟨hkey, spelling, others, hothers, hspelling, hother⟩
    · simp only [hvalue, Datum.settled]
      refine readable_text (fun hsame ↦ ?_) text
      rw [hsame] at hkey
      exact hswitch hkey.symm
    · have hsection := hheld (spelling, .table others) hothers hspelling
      simp only [Datum.settled, settledFields_eq] at hsection
      exact hvalid.entries spelling _ hsection hspelling (entry.1, entry.2.settled)
        (List.mem_map.mpr ⟨entry, hother, rfl⟩) hkey

/-- An option that stands once in a section of a configuration that can be read is bound from
there. -/
theorem exists_boundFrom {schema : Schema} {spec : OptionSpec} (hspec : spec ∈ schema.options)
    (hswitch : Key.normal spec.name ≠ Key.normal switchKey) (hclear : Clear id spec.name merged)
    {spelling text : String} (hsetting : setting? id spec.name merged = some (spelling, .text text))
    (hconfig : config.components = Datum.settledFields merged)
    {components : List ComponentSection} (hsections : config.sections = .ok components) :
    ∃ component ∈ components, Key.normal component.id = Key.normal id ∧
      (∀ other ∈ components, Key.normal other.id = Key.normal id → other = component) ∧
      ∀ (binder : Binder) (resolver : Resolver),
        binder.BoundFrom schema resolver component.rawValues spec (spelling, .text text) := by
  obtain ⟨name, entries, hfind, htable, hfield⟩ := hclear.find?_settled hsetting
  rw [← hconfig] at hfind
  simp only [Datum.settled] at hfield
  obtain ⟨component, hmem, hread, honly⟩ := Config.exists_component hsections hfind
  have hkey : spelling ≠ switchKey := by
    intro hsame
    have hname := normal_of_find?_eq_some hfield
    rw [hsame] at hname
    exact hswitch hname.symm
  have hpresent : isPresent (.text text) = true := by simp [isPresent]
  have htext : leafText? (.text text) = some text := by simp [leafText?, scalarText?]
  obtain ⟨found, hfound, hentries⟩ := entriesOf_of_clear htable hread hfield hkey hpresent
  obtain rfl := Option.some.inj (htext.symm.trans hfound)
  have hname := normal_of_find?_eq_some hfind
  rw [← id_of_ofDatum hread] at hname
  exact ⟨component, hmem, hname, honly, fun _ _ ↦ Binder.boundFrom_of_only hspec hentries⟩

end Alike

/-! ### One variable -/

/-- What is put over the sources of a configuration that is loaded. -/
theorem exists_of_load (huses : loader.usesEnvironment = true) {general : List (String × Datum)}
    (hgeneral : around.environment.generalLayer = .ok general)
    (hnone : Fields.get? componentsKey general = none)
    (hcomponents : around.environment.componentLayer = .ok []) {config : Config}
    (hload : (loader.load around).value = .ok config) :
    ∃ files low source result, (loader.mergeFiles around).value = .ok (.ok files) ∧
      Layer.relaxedMerge (.ok files) (.ok general) = .ok low ∧ loader.overrides = .ok source ∧
      Layer.relaxedMerge (.ok low) (.ok source) = .ok result ∧
      extract (.ok result) = .ok config := by
  have hvalue : (loader.load around).value = (loader.mergeFiles around).value.bind fun files ↦
    extract (loader.mergeRest around files) := rfl
  rw [hvalue] at hload
  cases hfiles : (loader.mergeFiles around).value with
  | error error => simp [hfiles, Except.bind] at hload
  | ok layer =>
    have hlayers : loader.mergeRest around layer =
        ((layer.relaxedMerge (.ok general)).relaxedMerge (.ok [])).relaxedMerge
          loader.overrides := by
      rw [mergeRest, if_pos huses, hgeneral, hcomponents, Layer.merge_of_no_sections _ hnone]
    have hextract : extract (loader.mergeRest around layer) = .ok config := by
      simpa [hfiles, Except.bind] using hload
    rw [hlayers] at hextract
    cases hresult : ((layer.relaxedMerge (.ok general)).relaxedMerge (.ok [])).relaxedMerge
        loader.overrides with
    | error fault => simp [hresult, extract] at hextract
    | ok result =>
      obtain ⟨⟨low, hlow⟩, source, hsource⟩ := Layer.eq_ok_of_relaxedMerge hresult
      obtain ⟨⟨beneath, hbeneath⟩, -⟩ := Layer.eq_ok_of_relaxedMerge hlow
      obtain ⟨⟨files, rfl⟩, -⟩ := Layer.eq_ok_of_relaxedMerge hbeneath
      have hnothing : Layer.relaxedMerge (.ok beneath) (.ok []) = .ok beneath := by
        simp [Layer.relaxedMerge, Layer.relaxed, Layer.merge, Fields.get?, Datum.overlayFields]
      rw [hbeneath, hnothing] at hlow
      obtain rfl := Except.ok.inj hlow
      rw [hresult] at hextract
      rw [hbeneath, hnothing, hsource] at hresult
      exact ⟨files, beneath, source, result, rfl, hbeneath, hsource, hresult, hextract⟩

/-- An option that a variable of the environment sets, whatever the files say about it: if the rest
is valid, the configuration is loaded and valid, its component has one section, and every binding of
the section binds the option from the text of the variable. A text option has this very text. -/
theorem variable_verbatim {around : Surroundings} {loader : Loader}
    (huses : loader.usesEnvironment = true) {before after : Environment} (hbefore : before.Apart)
    (hafter : after.Apart) {id option : String} (hplain : Environment.Plain id option)
    {schema : Schema} {spec : OptionSpec} (hspec : spec ∈ schema.options)
    (hid : Key.normal id = Key.normal schema.id)
    (hoption : Key.normal option = Key.normal spec.name)
    (hswitch : Key.normal spec.name ≠ Key.normal switchKey)
    (hfiles : ∀ path ∈ loader.filesRead around, ∀ source,
      fileLayer around.files path = .ok source → TidySections source)
    (hoverrides : ∀ source, loader.overrides = .ok source → SparesComponent schema.id source)
    {rest : Config}
    (hrest : (loader.load { around with environment := before ++ after }).value = .ok rest)
    (hvalid : (rest.without schema.id spec.name).validate = .ok ()) (text : String) :
    ∃ config components component key,
      (loader.load { around with
        environment := before ++ (Environment.variableName id option, text) :: after }).value =
          .ok config ∧
      config.validate = .ok () ∧ config.sections = .ok components ∧ component ∈ components ∧
      Key.normal component.id = Key.normal schema.id ∧
      (∀ other ∈ components, Key.normal other.id = Key.normal schema.id → other = component) ∧
      ∀ (binder : Binder) (resolver : Resolver),
        binder.BoundFrom schema resolver component.rawValues spec (key, .text text) ∧
        (spec.kind = .string → ∀ (bound : Bound) (index : Nat),
          (binder.bind schema component.rawValues resolver).value = .ok bound →
          schema.options[index]? = some spec →
          bound.values[index]? = some (some (.string text))) := by
  have hapart : Environment.Apart (before ++ after) := List.forall_mem_append.mpr ⟨hbefore, hafter⟩
  obtain ⟨general, hgeneral, hordered, hnone⟩ := Environment.general_of_apart hapart
  obtain ⟨sid, path, hblank, hsid, hpath, hsame, hquiet, hvariable⟩ :=
    Environment.layers_of_variable hbefore hafter hplain text
  obtain ⟨files, low, source, result, hfilesRead, hlow, hsource, hresult, hextract⟩ :=
    exists_of_load huses hgeneral hnone hquiet hrest
  obtain ⟨known, hholds, hneat⟩ := exists_neat hfiles (mergeFiles_eq_ok hfilesRead).symm
  have hbeneath : Holds (.ok low) known :=
    hlow ▸ Layer.relaxedMerge_of_none hholds hordered hnone
  -- The variable is put over what stands beneath, and the values set by the program over both.
  have hleaf : (Datum.text text).IsLeaf := by simp [Datum.IsLeaf]
  obtain ⟨varied, knownVaried, hvaried, halike, hset⟩ :=
    Layer.relaxedMerge_setting hbeneath hneat hleaf (hsid.trans hid) (hpath.trans hoption)
  obtain ⟨merged, knownMerged, knownResult, hmerged, halikeResult, hpart, hpartResult⟩ :=
    halike.relaxedMerge (hoverrides source hsource) hresult
  have hrestComponents := Layer.components_of_extract halikeResult.holdsOthers hextract
  have hbut := Config.validBut_of_without hvalid
  -- What the component had beneath, the configuration without the variable has.
  have hheld : ∀ given ∈ known, Key.normal given.1 = Key.normal schema.id →
      (given.1, given.2.settled) ∈ rest.components := by
    intro given hgiven hname
    rw [hrestComponents, settledFields_eq]
    exact List.mem_map.mpr ⟨given, mem_of_filter_eq hpartResult.symm hgiven hname, rfl⟩
  have hvalidate : Config.validate { rest with components := Datum.settledFields knownMerged } =
      .ok () :=
    validate_of_alike hbut hrestComponents halikeResult.ordered halikeResult.sections
      (fun given ↦ mem_of_filter_eq hpart) hset.neat
      fun name entries ↦ readable_of_setOver hbut hheld hset hblank hswitch
  obtain ⟨-, -, components, hsections⟩ := Config.validate_eq_ok_iff.mp hvalidate
  obtain ⟨hclear, hsetting⟩ := clear_of_filter_eq halikeResult.ordered hpart
    (hset.neat.clear schema.id spec.name)
  obtain ⟨key, hfound⟩ := hset.setting
  obtain ⟨component, hmem, hname, honly, hbound⟩ :=
    exists_boundFrom hspec hswitch hclear (hsetting.trans hfound) rfl hsections
  refine ⟨_, components, component, key, ?_, hvalidate, hsections, hmem, hname, honly,
    fun binder resolver ↦ ⟨hbound binder resolver, fun hkind bound index hbind hindex ↦ ?_⟩⟩
  · have hfilesValue : (loader.mergeFiles around).value = .ok (.ok files) := hfilesRead
    change
      ((loader.mergeFiles around).value.bind fun files ↦ extract (loader.mergeRest _ files)) = _
    rw [hfilesValue]
    change extract (loader.mergeRest _ (.ok files)) = _
    rw [mergeRest, if_pos huses, hsame, hgeneral, hvariable, Layer.merge_of_no_sections _ hnone,
      hlow, hvaried, hsource, hmerged, halikeResult.extract hextract]
  · exact (hbound binder resolver).string hkind hbind hindex

/-- A component that reads a stream. -/
def stream : Schema where
  id := "stream"
  options := [{ name := "streamName", kind := .string }]
  indexed := by decide +kernel

/-- A file names the stream in a spelling of its own, and a variable names it anew. The text of the
variable looks like a number between blanks and is kept as it is. -/
theorem variable_verbatim_stream :
    let file := "[components.Stream]\nstream-name = \"orders\"\nlimit = 5\n"
    let around : Surroundings := { files := .ofList [("conflux.toml", file)] }
    let loader : Loader := {}
    let before : Environment := [("CONFLUX_LOGGING__LEVEL", "debug")]
    let name := Environment.variableName "STREAM" "STREAM_NAME"
    ∃ config components, ∃ component ∈ components,
      (loader.load { around with environment := before ++ [(name, " 007 ")] }).value = .ok config ∧
        config.validate = .ok () ∧ config.sections = .ok components ∧
        component.id = "Stream" ∧ ∀ binder : Binder,
          binder.BoundFrom stream .none component.rawValues
            { name := "streamName", kind := .string } ("stream-name", .text " 007 ") := by
  intro file around loader before name
  have hnone :
      (Environment.variableName "STREAM" "STREAM_NAME").toList.any Text.isBlank = false := by
    decide +kernel
  have hplain : Environment.Plain "STREAM" "STREAM_NAME" :=
    ⟨fun c hc ↦ by simpa using List.any_eq_false.mp hnone c hc, by decide +kernel,
      by decide +kernel, by decide +kernel⟩
  have hfiles : ∀ path ∈ loader.filesRead around, ∀ source,
      fileLayer around.files path = .ok source → TidySections source := by
    have hpaths : loader.filesRead around = ["conflux.toml"] := by decide +kernel
    have hlayer : fileLayer around.files "conflux.toml" = .ok [(componentsKey, .table [("Stream",
        .table [("limit", .int 5), ("stream-name", .text "orders")])])] := by decide +kernel
    intro path hpath source hsource
    rw [hpaths, List.mem_singleton] at hpath
    rw [hpath, hlayer] at hsource
    obtain rfl := Except.ok.inj hsource
    have htidy :
        Tidy [("Stream", .table [("limit", .int 5), ("stream-name", .text "orders")])] := by
      refine ⟨by decide +kernel, fun given hgiven ↦ ?_⟩
      obtain rfl := List.mem_singleton.mp hgiven
      exact ⟨_, rfl, by decide +kernel⟩
    have hsections := Layer.tidySource_of_sections htidy
    exact ⟨hsections.table, hsections.tidy⟩
  have hoverrides : ∀ source, loader.overrides = .ok source → SparesComponent stream.id source := by
    intro source hsource
    obtain rfl := Except.ok.inj hsource
    exact ⟨List.Pairwise.nil, by simp [Fields.get?], by simp [Spares, Layer.sections, Fields.get?]⟩
  let rest : Config := {
    logging := { level := .debug }
    components := [("Stream", .table [("limit", .int 5), ("stream-name", .text "orders")])] }
  have hrest : (loader.load { around with environment := before ++ [] }).value = .ok rest := by
    decide +kernel
  have hvalid : (rest.without stream.id "streamName").validate = .ok () := by decide +kernel
  have huses : loader.usesEnvironment = true := rfl
  have hbefore : before.Apart := by decide +kernel
  have hafter : Environment.Apart [] := by decide +kernel
  let spec : OptionSpec := { name := "streamName", kind := .string }
  have hspec : spec ∈ stream.options := List.mem_singleton.mpr rfl
  have hid : Key.normal "STREAM" = Key.normal stream.id := by decide +kernel
  have hoption : Key.normal "STREAM_NAME" = Key.normal spec.name := by decide +kernel
  have hswitch : Key.normal spec.name ≠ Key.normal switchKey := by decide +kernel
  obtain ⟨config, components, component, key, hload, hvalidate, hsections, hmem, hname, honly,
      hbound⟩ :=
    variable_verbatim huses hbefore hafter hplain hspec hid hoption hswitch hfiles hoverrides hrest
      hvalid " 007 "
  let found : Config := {
    logging := { level := .debug }
    components := [("Stream", .table [("limit", .int 5), ("stream-name", .text " 007 ")])] }
  have hfound : (loader.load { around with environment := before ++ [(name, " 007 ")] }).value =
      .ok found := by decide +kernel
  obtain rfl := Except.ok.inj (hfound.symm.trans hload)
  have hread : found.sections =
      .ok [⟨"Stream", true, [("limit", "5"), ("stream-name", " 007 ")]⟩] := by decide +kernel
  obtain rfl := Except.ok.inj (hread.symm.trans hsections)
  obtain rfl := List.mem_singleton.mp hmem
  have hentries : Binder.entriesOf (rawValues ⟨"Stream", true, [("limit", "5"),
      ("stream-name", " 007 ")]⟩) spec = [("stream-name", .text " 007 ")] := by decide +kernel
  have hkey := hentries.symm.trans (hbound {} .none).1.only
  obtain rfl := (Prod.mk.inj (List.cons.inj hkey).1).1
  exact ⟨found, _, _, hmem, hload, hvalidate, hsections, rfl, fun binder ↦ (hbound binder .none).1⟩

/-- A name with four underscores in a row has an empty step, so the variable sets nothing, though
what follows the id is a spelling of the option. The component is bound from the file. -/
theorem variable_skipped :
    let file := "[components.stream]\nstreamName = \"orders\"\n"
    let around : Surroundings := {
      files := .ofList [("conflux.toml", file)]
      environment := [(Environment.variableName "STREAM" "STREAM____NAME", "returns")] }
    let config : Config := {
      components := [("stream", .table [("streamName", .text "orders")])] }
    let component : ComponentSection := ⟨"stream", true, [("streamName", "orders")]⟩
    Key.normal "STREAM____NAME" = Key.normal "streamName" ∧
      (({} : Loader).load around).value = .ok config ∧ config.sections = .ok [component] ∧
      (Binder.strict.bind stream component.rawValues .none).value =
        .ok ⟨stream, [some (.string "orders")]⟩ := by
  decide +kernel

end Loader

end Connectors
