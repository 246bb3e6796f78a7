import Connectors.Proofs.Environment.OneVariable
import Connectors.Proofs.Loader.Merging

/-!
# Which layer a variable is for

Whether a variable is for the components is decided twice. The layer with guessed values leaves out
the names whose rest begins with `components` and two underscores, as it is written, or is this word
alone. The layer of components takes the variables whose path begins with `components` and a point,
and a path is trimmed and has points for underscores. A name is `Misspelt` where the two may differ:
its rest begins with white space, or a point stands in it after `components`. Both layers use a
variable exactly if it is for a component and its name is misspelt (`Environment.both_layers_iff`),
and the layer with guessed values has something for the components exactly if it has such a variable
(`Environment.guessed_components_iff`).

Without such variables the environment reaches the components by the layer of components alone: the
sections in it hold the texts of variables as they are (`Environment.Verbatim`), and they are put
over those of the files in the spellings of the files (`Environment.components_from_environment`).
With such a variable a value is there twice, or a component has two sections
(`Environment.point_guessed`).
-/

set_option autoImplicit false
set_option relaxedAutoImplicit false

namespace Connectors

namespace Environment

open Relaxed Spelling
open Layer (Holds)

/-! ### Names -/

/-- The rest of the name of a variable begins with white space, or with `components` and a point. -/
def Misspelt (name : String) : Prop :=
  (rest? name).any (fun rest ↦ rest.toList.head?.any Text.isBlank ||
    (componentsKey ++ ".").toList.isPrefixOf (rest.toList.map Char.toLower)) = true

instance : DecidablePred Misspelt := fun name ↦
  inferInstanceAs (Decidable ((rest? name).any _ = true))

/-- The variable has a value for a component or for an option of it. -/
def ForComponent (name : String) : Prop :=
  ∃ rest, pathOf? name = some (componentsKey ++ "." ++ rest)

theorem misspelt_iff {name rest : String} (hrest : rest? name = some rest) :
    Misspelt name ↔ (∃ c ∈ rest.toList.head?, Text.isBlank c = true) ∨
      (componentsKey ++ ".").toList <+: rest.toList.map Char.toLower := by
  rw [Misspelt, hrest, Option.any_some, Bool.or_eq_true, List.isPrefixOf_iff_prefix]
  cases rest.toList.head? <;> simp

/-- The rest of a name does not end with white space. -/
theorem isBlank_last {name rest : String} (hrest : rest? name = some rest) {c : Char}
    (hc : c ∈ rest.toList.getLast?) : Text.isBlank c = false := by
  rw [rest?] at hrest
  split_ifs at hrest with hstart
  obtain rfl := Option.some.inj hrest
  rw [String.toList_ofList, List.getLast?_drop] at hc
  split_ifs at hc with hlength
  · simp at hc
  · rw [Text.trim, String.toList_ofList] at hc
    exact Text.isBlank_of_mem_getLast?_trimChars hc

/-- The path of a name whose rest has no white space at its ends is the rest with its points. -/
theorem toList_path {rest path : String} (hpath : path? rest = some path)
    (hfirst : ∀ c ∈ rest.toList.head?, Text.isBlank c = false)
    (hlast : ∀ c ∈ rest.toList.getLast?, Text.isBlank c = false) :
    path.toList = Text.dotted (rest.toList.map Char.toLower) := by
  rw [path?] at hpath
  split_ifs at hpath with hempty
  obtain rfl := Option.some.inj hpath
  rw [trim_replaceAll hfirst hlast, Text.lowerAscii, String.toList_ofList, toList_replaceAll,
    Text.dotted_lower]

theorem isComponentName_iff (rest : String) : isComponentName rest = true ↔
    rest.toList.map Char.toLower = componentsKey.toList ∨
      (componentsKey ++ "__").toList <+: rest.toList.map Char.toLower := by
  simp only [isComponentName, Bool.or_eq_true, decide_eq_true_eq, List.isPrefixOf_iff_prefix,
    Text.lowerAscii, String.toList_ofList, ← String.toList_inj]

/-- Of the names that lead to the components, those that are not seen as theirs are misspelt. -/
theorem isComponentName_of_not_misspelt {name rest : String} (hrest : rest? name = some rest)
    (hsets : SetsComponents name) (hspelt : ¬ Misspelt name) : isComponentName rest = true := by
  rw [misspelt_iff hrest] at hspelt
  obtain ⟨hblank, hpoint⟩ := not_or.mp hspelt
  have hfirst : ∀ c ∈ rest.toList.head?, Text.isBlank c = false := fun c hc ↦
    Bool.eq_false_iff.mpr fun h ↦ hblank ⟨c, hc, h⟩
  obtain ⟨_, path, hsame, hpath, hhead⟩ := setsComponents_iff_exists.mp hsets
  obtain rfl := Option.some.inj (hrest.symm.trans hsame)
  have hletters := toList_path hpath hfirst fun c hc ↦ isBlank_last hrest hc
  have hunderscore : '_' ∉ componentsKey.toList := by decide
  rw [Text.split, List.head?_map, Option.map_eq_some_iff, hletters] at hhead
  obtain ⟨first, hfirst, hname⟩ := hhead
  obtain ⟨others, hsplit⟩ := List.head?_eq_some_iff.mp hfirst
  obtain rfl : first = componentsKey.toList := by rw [← hname, String.toList_ofList]
  rw [isComponentName_iff]
  rcases Text.eq_or_prefix_of_splitChars_dotted hunderscore hsplit with h | h | h
  · exact .inl h
  · exact absurd (by simpa [String.toList_append] using h) hpoint
  · exact .inr (by simpa [String.toList_append] using h)

/-- A misspelt name is for the layer with guessed values. -/
theorem isGeneral_of_misspelt {name rest : String} (hrest : rest? name = some rest)
    (hmisspelt : Misspelt name) : isGeneral rest = true := by
  have hword : (Text.lowerAscii "profile").toList = 'p' :: "rofile".toList := by decide
  have hkey : componentsKey.toList = 'c' :: "omponents".toList := rfl
  have hnot : Text.lowerAscii rest ≠ Text.lowerAscii "profile" ∧ isComponentName rest ≠ true := by
    rw [ne_eq, ← String.toList_inj, hword, Text.lowerAscii, String.toList_ofList, ne_eq,
      isComponentName_iff, String.toList_append, hkey]
    rcases (misspelt_iff hrest).mp hmisspelt with ⟨c, hc, hblank⟩ | ⟨after, hpoint⟩
    · obtain ⟨others, hothers⟩ := List.head?_eq_some_iff.mp hc
      have hother : ∀ letter, Text.isBlank letter = false → letter ≠ c.toLower := by
        rintro _ hletter rfl
        rw [Text.isBlank_toLower, hblank] at hletter
        exact Bool.noConfusion hletter
      have hp := hother 'p' (by decide)
      have hc := hother 'c' (by decide)
      simp [hothers, hp.symm, hc, hc.symm]
    · rw [← hpoint, String.toList_append, hkey]
      simp
  simpa [isGeneral, Text.sameAscii] using hnot

/-- Of the variables that set components the layer with guessed values takes those that are
misspelt. -/
theorem isGeneral_iff {name rest : String} (hrest : rest? name = some rest)
    (hsets : SetsComponents name) : isGeneral rest = true ↔ Misspelt name := by
  refine ⟨fun hgeneral ↦ ?_, isGeneral_of_misspelt hrest⟩
  by_contra hspelt
  rw [isGeneral, isComponentName_of_not_misspelt hrest hsets hspelt] at hgeneral
  simp at hgeneral

/-! ### The layers of one variable -/

theorem ForComponent.setsComponents {name : String} (hfor : ForComponent name) :
    SetsComponents name := by
  obtain ⟨rest, hpath⟩ := hfor
  have hpoint : '.' ∉ componentsKey.toList := by decide
  exact (setsComponents_iff hpath (Text.split_append_point hpoint rest)).mpr rfl

theorem generalLayer_single_ne_iff {name text : String} : generalLayer [(name, text)] ≠ .ok [] ↔
    ∃ rest path, rest? name = some rest ∧ isGeneral rest = true ∧ path? rest = some path := by
  obtain ⟨general, hgeneral, -, hnames⟩ := generalLayer_names [(name, text)]
  have hsome : general ≠ [] ↔ ∃ first, first ∈ Fields.names general := by
    cases general <;> simp [Fields.names]
  rw [hgeneral, ne_eq, Except.ok.injEq, ← ne_eq, hsome]
  constructor
  · rintro ⟨first, hmem⟩
    obtain ⟨entry, hentry, rest, path, hrest, hgeneral, hpath, -⟩ := (hnames first).mp hmem
    obtain rfl := List.mem_singleton.mp hentry
    exact ⟨rest, path, hrest, hgeneral, hpath⟩
  · rintro ⟨rest, path, hrest, hgeneral, hpath⟩
    obtain ⟨first, others, hsplit, -⟩ := split_of_path?_eq_some hpath
    exact ⟨first, (hnames first).mpr ⟨_, List.mem_singleton.mpr rfl, rest, path, hrest, hgeneral,
      hpath, by rw [hsplit, List.head?_cons]⟩⟩

/-- A setting for a component is added under its id, or in the section of its id. -/
theorem addComponent_eq_ok {sections added : Fields Datum} {rest text : String}
    (hadd : addComponent sections rest text = .ok added) :
    added = Fields.put rest (.text text) sections ∨
      ∃ id option fields, rest = id ++ "." ++ option ∧
        (fields = [] ∨ Fields.get? id sections = some (.table fields)) ∧
        added = Fields.put id (.table (Fields.put option (.text text) fields)) sections := by
  rw [addComponent] at hadd
  cases hsplit : Text.splitOnce '.' rest with
  | none =>
    simp only [hsplit] at hadd
    split_ifs at hadd
    exact .inl (Except.ok.inj hadd).symm
  | some parts =>
    obtain ⟨id, option⟩ := parts
    simp only [hsplit] at hadd
    refine .inr ⟨id, option, ?_⟩
    cases hget : Fields.get? id sections with
    | none =>
      simp only [hget] at hadd
      exact ⟨[], Text.splitOnce_eq_some hsplit, .inl rfl, (Except.ok.inj hadd).symm⟩
    | some held =>
      cases held with
      | table fields =>
        simp only [hget] at hadd
        exact ⟨fields, Text.splitOnce_eq_some hsplit, .inr rfl, (Except.ok.inj hadd).symm⟩
      | _ => simp [hget] at hadd

theorem settings_single (name text : String) : settings [(name, text)] (fun _ ↦ true) =
    ((pathOf? name).map fun path ↦ (path, text)).toList := by
  rw [settings, pathOf?]
  cases hrest : rest? name with
  | none => simp [hrest]
  | some rest => cases hpath : path? rest <;> simp [hrest, hpath, Option.filter_some]

theorem componentLayer_single_ne_iff {name text : String} :
    componentLayer [(name, text)] ≠ .ok [] ↔ ForComponent name := by
  rw [componentLayer, settings_single, ForComponent]
  cases pathOf? name with
  | none => simp [addComponents, Except.map]
  | some path =>
    rw [Option.map_some, Option.toList_some]
    by_cases hbelow : ∃ rest, path = componentsKey ++ "." ++ rest
    · obtain ⟨rest, rfl⟩ := hbelow
      have hadd : ∃ field, addComponent [] rest text = .ok [field] := by
        rw [addComponent]
        cases Text.splitOnce '.' rest with
        | none => exact ⟨_, rfl⟩
        | some parts => exact ⟨_, rfl⟩
      obtain ⟨field, hfield⟩ := hadd
      rw [addComponents_add, hfield]
      simp [Except.bind, addComponents, Except.map]
    · rw [addComponents_skip (not_exists.mp hbelow)]
      simp only [Option.some.injEq, hbelow, iff_false, not_not]
      rfl

/-- Both layers use a variable exactly if it is for a component and its name is misspelt. -/
theorem both_layers_iff (name text : String) :
    generalLayer [(name, text)] ≠ .ok [] ∧ componentLayer [(name, text)] ≠ .ok [] ↔
      ForComponent name ∧ Misspelt name := by
  rw [generalLayer_single_ne_iff, componentLayer_single_ne_iff, and_comm]
  refine and_congr_right fun hfor ↦ ?_
  constructor
  · rintro ⟨rest, path, hrest, hgeneral, -⟩
    exact (isGeneral_iff hrest hfor.setsComponents).mp hgeneral
  · intro hmisspelt
    obtain ⟨below, hpath⟩ := hfor
    obtain ⟨rest, hrest, hpath⟩ := Option.bind_eq_some_iff.mp hpath
    exact ⟨rest, _, hrest, isGeneral_of_misspelt hrest hmisspelt, hpath⟩

/-- The layer with guessed values has something for the components exactly if a variable that sets
them is misspelt. -/
theorem guessed_components_iff {environment : Environment} {general : List (String × Datum)}
    (hgeneral : environment.generalLayer = .ok general) :
    componentsKey ∈ Fields.names general ↔
      ∃ entry ∈ environment, SetsComponents entry.1 ∧ Misspelt entry.1 := by
  obtain ⟨_, hsame, -, hnames⟩ := generalLayer_names environment
  obtain rfl := Except.ok.inj (hgeneral.symm.trans hsame)
  rw [hnames]
  refine exists_congr fun entry ↦ and_congr_right fun _ ↦ ?_
  constructor
  · rintro ⟨rest, path, hrest, hkept, hpath, hfirst⟩
    have hsets := setsComponents_iff_exists.mpr ⟨rest, path, hrest, hpath, hfirst⟩
    exact ⟨hsets, (isGeneral_iff hrest hsets).mp hkept⟩
  · rintro ⟨hsets, hmisspelt⟩
    obtain ⟨rest, path, hrest, hpath, hfirst⟩ := setsComponents_iff_exists.mp hsets
    exact ⟨rest, path, hrest, isGeneral_of_misspelt hrest hmisspelt, hpath, hfirst⟩

/-! ### Texts as they are -/

/-- A variable has a text for a path. -/
def Sets (environment : Environment) (path text : String) : Prop :=
  ∃ entry ∈ environment, pathOf? entry.1 = some path ∧ entry.2 = text

/-- A section, or a value in its place, whose texts are those of variables for their paths. -/
inductive Verbatim (environment : Environment) : String × Datum → Prop
  /-- A value in the place of a section. -/
  | value {id text : String} (hsets : environment.Sets (componentsKey ++ "." ++ id) text) :
    Verbatim environment (id, .text text)
  /-- A section. -/
  | table {id : String} {fields : Fields Datum}
    (hfields : ∀ field ∈ fields, ∃ text, field.2 = .text text ∧
      environment.Sets (componentsKey ++ "." ++ id ++ "." ++ field.1) text) :
    Verbatim environment (id, .table fields)

variable {environment : Environment}

/-- A setting of a variable that is added keeps the texts as they are. -/
theorem Verbatim.addComponent {sections added : Fields Datum} {rest text : String}
    (hsections : ∀ given ∈ sections, environment.Verbatim given)
    (hsets : environment.Sets (componentsKey ++ "." ++ rest) text)
    (hadd : addComponent sections rest text = .ok added) :
    ∀ given ∈ added, environment.Verbatim given := by
  intro given hgiven
  rcases addComponent_eq_ok hadd with rfl | ⟨id, option, fields, rfl, hfields, rfl⟩
  · rcases Fields.mem_of_mem_put hgiven with rfl | hgiven
    · exact .value hsets
    · exact hsections given hgiven
  · rcases Fields.mem_of_mem_put hgiven with rfl | hgiven
    · refine .table fun field hfield ↦ ?_
      rcases Fields.mem_of_mem_put hfield with rfl | hfield
      · exact ⟨text, rfl, by simpa only [String.append_assoc] using hsets⟩
      · rcases hfields with rfl | hget
        · exact absurd hfield List.not_mem_nil
        · cases hsections _ (Fields.mem_of_get?_eq_some hget) with
          | table hheld => exact hheld field hfield
    · exact hsections given hgiven

theorem Verbatim.addComponents {sections added : Fields Datum} {settings : List (String × String)}
    (hsections : ∀ given ∈ sections, environment.Verbatim given)
    (hsettings : ∀ setting ∈ settings, environment.Sets setting.1 setting.2)
    (hadd : addComponents sections settings = .ok added) :
    ∀ given ∈ added, environment.Verbatim given := by
  induction settings generalizing sections with
  | nil =>
    obtain rfl := Except.ok.inj hadd
    exact hsections
  | cons setting rest ih =>
    obtain ⟨path, text⟩ := setting
    obtain ⟨hsets, hothers⟩ := List.forall_mem_cons.mp hsettings
    by_cases hbelow : ∃ below, path = componentsKey ++ "." ++ below
    · obtain ⟨below, rfl⟩ := hbelow
      rw [addComponents_add] at hadd
      cases hfirst : Environment.addComponent sections below text with
      | error fault => simp [hfirst, Except.bind] at hadd
      | ok first =>
        rw [hfirst] at hadd
        exact ih (Verbatim.addComponent hsections hsets hfirst) hothers hadd
    · rw [addComponents_skip (not_exists.mp hbelow)] at hadd
      exact ih hsections hothers hadd

/-- The layer of components has a table of sections at most. -/
theorem componentLayer_cases {components : List (String × Datum)}
    (hcomponents : environment.componentLayer = .ok components) :
    ∃ sections, addComponents [] (environment.settings fun _ ↦ true) = .ok sections ∧
      Layer.sections (.ok components) = sections ∧
      (components = [] ∨ components = [(componentsKey, .table sections)]) := by
  rw [componentLayer] at hcomponents
  cases hadd : addComponents [] (environment.settings fun _ ↦ true) with
  | error fault => simp [hadd, Except.map] at hcomponents
  | ok sections =>
    rw [hadd] at hcomponents
    obtain rfl := Except.ok.inj hcomponents
    refine ⟨sections, rfl, ?_⟩
    cases sections with
    | nil => exact ⟨rfl, .inl rfl⟩
    | cons first rest => exact ⟨rfl, .inr rfl⟩

/-- The sections of the environment hold the texts of variables as they are. -/
theorem verbatim_sections : ∀ given ∈ Layer.sections environment.componentLayer,
    environment.Verbatim given := by
  cases hcomponents : environment.componentLayer with
  | error fault => simp [Layer.sections]
  | ok components =>
    obtain ⟨sections, hadd, hsections, -⟩ := componentLayer_cases hcomponents
    rw [hsections]
    exact Verbatim.addComponents (by simp) (fun _ hmem ↦ exists_of_mem_settings hmem) hadd

/-! ### Both layers over the files -/

/-- No variable that sets components is misspelt. -/
def Spelt (environment : Environment) : Prop :=
  ∀ entry ∈ environment, SetsComponents entry.1 → ¬ Misspelt entry.1

instance (environment : Environment) : Decidable environment.Spelt :=
  inferInstanceAs (Decidable (∀ entry ∈ environment, SetsComponents entry.1 → ¬ Misspelt entry.1))

theorem get?_components_eq_none_iff {general : List (String × Datum)}
    (hgeneral : environment.generalLayer = .ok general) :
    Fields.get? componentsKey general = none ↔ environment.Spelt := by
  rw [Fields.get?_eq_none_iff, guessed_components_iff hgeneral, Spelt]
  push Not
  exact Iff.rfl

/-- What has no sections leaves those of a layer as they are. -/
theorem sections_merge {general : List (String × Datum)} (hordered : Fields.Ordered general)
    (hnone : Fields.get? componentsKey general = none) (files : Layer) :
    (files.merge (.ok general)).sections = files.sections := by
  cases files with
  | error fault => rfl
  | ok fields =>
    rw [Layer.merge, Layer.sections, Layer.sections,
      Datum.get?_overlayFields hordered.nodup_names, hnone]

/-- The layer of components is tidy as a source if its sections are. -/
theorem tidySource_componentLayer {components : List (String × Datum)}
    (hcomponents : environment.componentLayer = .ok components)
    (htidy : Tidy (Layer.sections (.ok components))) : Layer.TidySource components := by
  obtain ⟨sections, -, hsections, rfl | rfl⟩ := componentLayer_cases hcomponents
  · exact ⟨List.Pairwise.nil, fun value hvalue ↦ by simp [Fields.get?] at hvalue, htidy⟩
  · exact Layer.tidySource_of_sections (hsections ▸ htidy)

/-- How the environment reaches the components. Both layers use a variable exactly if it is for a
component and its name is misspelt, and the layer with guessed values has something for the
components exactly if there is a misspelt variable that sets them. The layer of components holds
texts of variables as they are. If no such variable is misspelt, the layer of components is
therefore put over the sections of the files alone: over neat ones each id and each option keeps the
spelling of the files, and the value of an option that a variable has is its text. -/
theorem components_from_environment (environment : Environment) :
    (∀ entry ∈ environment, generalLayer [entry] ≠ .ok [] ∧ componentLayer [entry] ≠ .ok [] ↔
        ForComponent entry.1 ∧ Misspelt entry.1) ∧
      (∃ general, environment.generalLayer = .ok general ∧
        (Fields.get? componentsKey general = none ↔ environment.Spelt)) ∧
      (∀ given ∈ environment.componentLayer.sections, environment.Verbatim given) ∧
      (environment.Spelt →
        (∀ files : Layer, (files.merge environment.generalLayer).sections = files.sections) ∧
        ∀ (files : Layer) (known components : List (String × Datum)),
          files.Holds known → Neat known → environment.componentLayer = .ok components →
          Tidy (Layer.sections (.ok components)) →
          ∃ merged, ((files.merge environment.generalLayer).relaxedMerge
              environment.componentLayer).Holds merged ∧ Neat merged ∧
            (∀ id, (find? id merged).map (·.1) = ((find? id known).map (·.1)).or
              ((find? id (Layer.sections (.ok components))).map (·.1))) ∧
            ∀ id key, setting? id key merged = latest (setting? id key known)
              (setting? id key (Layer.sections (.ok components)))) := by
  obtain ⟨general, hgeneral, hordered, -⟩ := generalLayer_names environment
  have hiff := get?_components_eq_none_iff hgeneral
  refine ⟨fun entry _ ↦ both_layers_iff entry.1 entry.2, ⟨general, hgeneral, hiff⟩,
    verbatim_sections, fun hspelt ↦ ?_⟩
  have hnone := hiff.mpr hspelt
  rw [hgeneral]
  refine ⟨sections_merge hordered hnone,
    fun files known components hholds hneat hcomponents htidy ↦ ?_⟩
  rw [hcomponents, Layer.merge_of_no_sections files hnone]
  exact Layer.relaxedMerge_holds (Layer.relaxedMerge_of_none hholds hordered hnone) hneat
    (tidySource_componentLayer hcomponents htidy)

/-- A file spells a section and an option in its own way, and a variable has a text for the option
that looks like a number. -/
theorem components_from_environment_proxied :
    let known : List (String × Datum) := [("Proxied", .table [("proxy-port", .int 1)])]
    let environment : Environment := [("CONFLUX_LOGGING__LEVEL", "debug"),
      ("CONFLUX_COMPONENTS__PROXIED__PROXY_PORT", "08080")]
    environment.Spelt ∧ ∃ merged,
      ((Layer.merge (.ok [(componentsKey, .table known)]) environment.generalLayer).relaxedMerge
        environment.componentLayer).Holds merged ∧ Neat merged ∧
      (find? "proxied" merged).map (·.1) = some "Proxied" ∧
      setting? "proxied" "proxyPort" merged = some ("proxy-port", .text "08080") := by
  intro known environment
  have hspelt : environment.Spelt := by decide +kernel
  let given : List (String × Datum) := [("proxied", .table [("proxy_port", .text "08080")])]
  have hcomponents : environment.componentLayer = .ok [(componentsKey, .table given)] := by
    decide +kernel
  have htidy : Tidy given := by
    refine ⟨by decide +kernel, fun given hgiven ↦ ?_⟩
    obtain rfl := List.mem_singleton.mp hgiven
    exact ⟨_, rfl, by decide +kernel⟩
  have hneat : Neat known := by
    refine ⟨List.pairwise_singleton _ _, by decide +kernel, fun held hheld ↦ ?_⟩
    obtain rfl := List.mem_singleton.mp hheld
    refine ⟨_, rfl, List.pairwise_singleton _ _, by decide +kernel, fun entry hentry ↦ ?_⟩
    obtain rfl := List.mem_singleton.mp hentry
    simp [Datum.IsLeaf]
  have hholds : Holds (.ok [(componentsKey, .table known)]) known :=
    ⟨_, rfl, List.pairwise_singleton _ _, rfl⟩
  obtain ⟨-, -, -, hover⟩ := components_from_environment environment
  obtain ⟨merged, hmerged, hmergedNeat, hids, hsettings⟩ :=
    (hover hspelt).2 _ known _ hholds hneat hcomponents htidy
  refine ⟨hspelt, merged, hmerged, hmergedNeat, ?_, ?_⟩
  · rw [hids]
    decide +kernel
  · rw [hsettings]
    decide +kernel

/-- With a point after the word for components both layers use a variable. The value is there as the
number that it looks like, and beside it as text; and where a file has the section in another
spelling, the guessed value makes a second section of it, so that the configuration is refused. -/
theorem point_guessed :
    let environment : Environment := [("CONFLUX_COMPONENTS.PROXIED.PROXY.PORT", "08080")]
    let around : Surroundings := {
      files := .ofList [("conflux.toml", "[components.aws2-kinesis]\nstreamName = \"orders\"\n")]
      environment := [("CONFLUX_COMPONENTS.AWS2_KINESIS.STREAM_NAME", "0001")] }
    environment.generalLayer = .ok [(componentsKey, .table [("proxied", .table
        [("proxy", .table [("port", .int 8080)])])])] ∧
      environment.componentLayer = .ok [(componentsKey, .table [("proxied", .table
        [("proxy.port", .text "08080")])])] ∧
      (({} : Loader).load { environment := environment }).value = .ok { components := [("proxied",
        .table [("proxy", .table [("port", .int 8080)]), ("proxy.port", .text "08080")])] } ∧
      (({} : Loader).load around).value.bind Config.sections =
        .error (.validation (.sameComponent "aws2-kinesis" "aws2_kinesis")) := by
  decide +kernel

end Environment

end Connectors
