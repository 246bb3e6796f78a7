import Connectors.Proofs.Environment.Names
import Connectors.Proofs.Sections.Overlay

/-!
# One variable of components

An environment is `Apart` from the components when the path of none of its variables begins with
`components`. Then its layer of components is empty and its other layer has no such key
(`Environment.general_of_apart`). One variable for an option of a component more changes the layer
of components only: it has one section then, with the text of the variable as it is
(`Environment.layers_of_variable`).
-/

set_option autoImplicit false
set_option relaxedAutoImplicit false

namespace Connectors

/-! ### Pieces of paths -/

namespace Text

theorem stripStart?_eq_some_iff {start cs rest : List Char} :
    stripStart? start cs = some rest ↔ cs = start ++ rest := by
  induction start generalizing cs with
  | nil => simp [stripStart?]
  | cons s start ih =>
    cases cs with
    | nil => simp [stripStart?]
    | cons c cs =>
      rw [stripStart?, List.cons_append, List.cons.injEq]
      split_ifs with hc
      · rw [ih]
        simp [hc]
      · simp [Ne.symm hc]

theorem split_append_point {first : String} (hpoint : '.' ∉ first.toList) (rest : String) :
    split '.' (first ++ "." ++ rest) = first :: split '.' rest := by
  have hlist : (first ++ "." ++ rest).toList = first.toList ++ '.' :: rest.toList := by
    simp [String.toList_append]
  rw [split, hlist, splitChars_append_cons, splitChars_eq_singleton hpoint]
  simp [split]

theorem splitOnce_append_point {first : String} (hpoint : '.' ∉ first.toList) (rest : String) :
    splitOnce '.' (first ++ "." ++ rest) = some (first, rest) := by
  have hlist : (first ++ "." ++ rest).toList = first.toList ++ '.' :: rest.toList := by
    simp [String.toList_append]
  have hbefore : ∀ c ∈ first.toList, decide (c ≠ '.') = true := by
    intro c hc
    simpa using fun heq : c = '.' ↦ hpoint (heq ▸ hc)
  have hspan : (first.toList ++ '.' :: rest.toList).span (· ≠ '.') =
      (first.toList, '.' :: rest.toList) := by
    rw [List.span_eq_takeWhile_dropWhile, List.takeWhile_append_of_pos hbefore,
      List.dropWhile_append_of_pos hbefore]
    simp
  rw [splitOnce, hlist, hspan]
  simp

/-- What stands before and after the first point. -/
theorem splitOnce_eq_some {text before after : String}
    (hsplit : splitOnce '.' text = some (before, after)) : text = before ++ "." ++ after := by
  rw [splitOnce, List.span_eq_takeWhile_dropWhile] at hsplit
  split at hsplit
  · exact absurd hsplit (Option.some_ne_none _).symm
  · rename_i first c rest hspan
    obtain ⟨hfirst, hrest⟩ := Prod.mk.inj hspan
    obtain ⟨rfl, rfl⟩ := Prod.mk.inj (Option.some.inj hsplit)
    have hpoint : c = '.' := by
      have hhead := List.head?_dropWhile_not (fun c ↦ decide (c ≠ '.')) text.toList
      rw [hrest] at hhead
      simpa using hhead
    have hboth := List.takeWhile_append_dropWhile (p := fun c ↦ decide (c ≠ '.')) (l := text.toList)
    rw [hfirst, hrest, hpoint] at hboth
    rw [← String.toList_inj, ← hboth]
    simp [String.toList_append]

/-- No point stands before the first one. -/
theorem not_mem_of_splitOnce_eq_some {text before after : String}
    (hsplit : splitOnce '.' text = some (before, after)) : '.' ∉ before.toList := by
  rw [splitOnce, List.span_eq_takeWhile_dropWhile] at hsplit
  split at hsplit
  · exact absurd hsplit (Option.some_ne_none _).symm
  · rename_i first c rest hspan
    obtain ⟨rfl, -⟩ := Prod.mk.inj hspan
    obtain ⟨rfl, -⟩ := Prod.mk.inj (Option.some.inj hsplit)
    rw [String.toList_ofList]
    exact fun hpoint ↦ by simpa using List.mem_takeWhile_imp hpoint

theorem splitOnce_eq_none_iff {text : String} : splitOnce '.' text = none ↔ '.' ∉ text.toList := by
  rw [splitOnce, List.span_eq_takeWhile_dropWhile]
  cases hrest : text.toList.dropWhile fun c ↦ decide (c ≠ '.') with
  | nil =>
    refine iff_of_true rfl fun hpoint ↦ ?_
    simpa using List.dropWhile_eq_nil_iff.mp hrest _ hpoint
  | cons c rest =>
    refine iff_of_false (Option.some_ne_none _) fun hpoint ↦ ?_
    have hall : ∀ c ∈ text.toList, decide (c ≠ '.') = true := fun c hc ↦
      decide_eq_true fun heq ↦ hpoint (heq ▸ hc)
    rw [List.dropWhile_eq_nil_iff.mpr hall] at hrest
    exact absurd hrest (List.cons_ne_nil _ _).symm

end Text

namespace Environment

/-- Whether a variable has settings for components. -/
def SetsComponents (name : String) : Prop :=
  ((pathOf? name).bind fun path ↦ (Text.split '.' path).head?) = some componentsKey

instance : DecidablePred SetsComponents := fun name ↦
  inferInstanceAs (Decidable
    (((pathOf? name).bind fun path ↦ (Text.split '.' path).head?) = some componentsKey))

/-- No variable has settings for components. -/
def Apart (environment : Environment) : Prop :=
  ∀ entry ∈ environment, ¬ SetsComponents entry.1

instance (environment : Environment) : Decidable environment.Apart :=
  inferInstanceAs (Decidable (∀ entry ∈ environment, ¬ SetsComponents entry.1))

/-- No name on a path is empty. -/
theorem split_of_path?_eq_some {rest path : String} (hpath : path? rest = some path) :
    ∃ first others, Text.split '.' path = first :: others ∧ first ≠ "" := by
  rw [path?] at hpath
  split_ifs at hpath with hempty
  obtain rfl := Option.some.inj hpath
  generalize Text.trim (Text.replaceAll "__" "." rest) = dotted at hempty
  have hsplit : Text.split '.' (Text.lowerAscii dotted) =
      (Text.split '.' dotted).map Text.lowerAscii := by
    rw [Text.split, Text.lowerAscii, String.toList_ofList, Text.splitChars_lower, Text.split,
      List.map_map, List.map_map]
    refine List.map_congr_left fun piece _ ↦ ?_
    simp [Text.lowerAscii]
  rw [hsplit]
  cases hpieces : Text.split '.' dotted with
  | nil =>
    have hnil := List.map_eq_nil_iff.mp hpieces
    exact absurd hnil (Text.splitChars_ne_nil _)
  | cons first others =>
    refine ⟨Text.lowerAscii first, others.map Text.lowerAscii, rfl, fun hlower ↦ hempty ?_⟩
    have hfirst : first = "" := by
      rw [← String.toList_inj, Text.lowerAscii, String.toList_ofList] at hlower
      rw [← String.toList_inj]
      simpa using hlower
    rw [hpieces, hfirst]
    rfl

/-! ### Settings -/

theorem settings_append (environment others : Environment) (keep : String → Bool) :
    settings (environment ++ others) keep = settings environment keep ++ settings others keep :=
  List.filterMap_append

/-- The first variable of an environment is among the settings if its rest is kept. -/
theorem settings_cons {name rest path : String} (hrest : rest? name = some rest)
    (hpath : path? rest = some path) (text : String) (environment : Environment)
    (keep : String → Bool) : settings ((name, text) :: environment) keep =
      if keep rest then (path, text) :: settings environment keep
      else settings environment keep := by
  rw [settings, List.filterMap_cons]
  by_cases hkeep : keep rest = true <;>
    simp [hrest, hpath, hkeep, settings, Option.filter_some]

theorem mem_settings_iff {environment : Environment} {keep : String → Bool}
    {setting : String × String} : setting ∈ settings environment keep ↔ ∃ entry ∈ environment,
      ∃ rest, rest? entry.1 = some rest ∧ keep rest = true ∧ path? rest = some setting.1 ∧
        entry.2 = setting.2 := by
  obtain ⟨path, text⟩ := setting
  rw [settings, List.mem_filterMap]
  refine exists_congr fun entry ↦ and_congr_right fun _ ↦ ?_
  simp [Option.bind_eq_some_iff, Option.filter_eq_some_iff, and_assoc]

/-- A setting stands at the path of a variable, with the text of the variable. -/
theorem exists_of_mem_settings {environment : Environment} {keep : String → Bool}
    {setting : String × String} (hmem : setting ∈ settings environment keep) :
    ∃ entry ∈ environment, pathOf? entry.1 = some setting.1 ∧ entry.2 = setting.2 := by
  obtain ⟨entry, hentry, rest, hrest, -, hpath, htext⟩ := mem_settings_iff.mp hmem
  exact ⟨entry, hentry, by rw [pathOf?, hrest, Option.bind_some, hpath], htext⟩

theorem split_of_pathOf?_eq_some {name path : String} (hpath : pathOf? name = some path) :
    ∃ first others, Text.split '.' path = first :: others ∧ first ≠ "" := by
  obtain ⟨rest, -, hrest⟩ := Option.bind_eq_some_iff.mp hpath
  exact split_of_path?_eq_some hrest

theorem setsComponents_iff_exists {name : String} : SetsComponents name ↔ ∃ rest path,
    rest? name = some rest ∧ path? rest = some path ∧
      (Text.split '.' path).head? = some componentsKey := by
  rw [SetsComponents, pathOf?, Option.bind_assoc, Option.bind_eq_some_iff]
  simp only [Option.bind_eq_some_iff, exists_and_left]

/-- A variable sets components if the first name on its path is theirs. -/
theorem setsComponents_iff {name path first : String} {others : List String}
    (hpath : pathOf? name = some path) (hsplit : Text.split '.' path = first :: others) :
    SetsComponents name ↔ first = componentsKey := by
  rw [SetsComponents, hpath, Option.bind_some, hsplit, List.head?_cons, Option.some.injEq]

/-- The paths of an environment that is apart lead elsewhere. -/
theorem Apart.split_path {environment : Environment} (hapart : environment.Apart)
    {keep : String → Bool} {setting : String × String}
    (hmem : setting ∈ settings environment keep) : ∃ first others,
      Text.split '.' setting.1 = first :: others ∧ first ≠ componentsKey := by
  obtain ⟨entry, hentry, hpath, -⟩ := exists_of_mem_settings hmem
  obtain ⟨first, others, hsplit, -⟩ := split_of_pathOf?_eq_some hpath
  exact ⟨first, others, hsplit, fun hfirst ↦
    hapart entry hentry ((setsComponents_iff hpath hsplit).mpr hfirst)⟩

/-! ### Guessed values -/

/-- Settings with their values guessed, put over fields one after another. -/
def guessedOver (fields : List (String × Datum)) (settings : List (String × String)) :
    List (String × Datum) :=
  settings.foldl (fun fields (path, text) ↦
    Datum.overlayFields fields (Layer.nest (Text.split '.' path) (Guess.datum text)).fields) fields

/-- Whether the rest of a name is for the layer with guessed values. -/
def isGeneral (rest : String) : Bool :=
  !Text.sameAscii rest "profile" && !isComponentName rest

theorem generalLayer_eq (environment : Environment) :
    environment.generalLayer = .ok (guessedOver [] (environment.settings isGeneral)) := rfl

theorem guessedOver_cons {path first : String} {others : List String}
    (hsplit : Text.split '.' path = first :: others) (hfirst : first ≠ "") (text : String)
    (fields : List (String × Datum)) (rest : List (String × String)) :
    guessedOver fields ((path, text) :: rest) =
      guessedOver (Fields.put first (Datum.united (Fields.get? first fields)
        (Layer.nest others (Guess.datum text))) fields) rest := by
  have hnest : Layer.nest (Text.split '.' path) (Guess.datum text) =
      .table [(first, Layer.nest others (Guess.datum text))] := by
    rw [hsplit, Layer.nest, if_neg (by simpa using hfirst)]
  rw [guessedOver, List.foldl_cons, guessedOver]
  simp only [hnest, Datum.fields, Datum.overlayFields_cons, Datum.overlayFields]

/-- The fields stay in order, and those added are the first names on the paths. -/
theorem guessedOver_names {settings : List (String × String)} (hsettings : ∀ setting ∈ settings,
      ∃ first others, Text.split '.' setting.1 = first :: others ∧ first ≠ "")
    {fields : List (String × Datum)} (hordered : Fields.Ordered fields) (name : String) :
    Fields.Ordered (guessedOver fields settings) ∧
      (name ∈ Fields.names (guessedOver fields settings) ↔ name ∈ Fields.names fields ∨
        ∃ setting ∈ settings, (Text.split '.' setting.1).head? = some name) := by
  induction settings generalizing fields with
  | nil => exact ⟨hordered, by simp [guessedOver]⟩
  | cons setting rest ih =>
    obtain ⟨path, text⟩ := setting
    obtain ⟨⟨first, others, hsplit, hfirst⟩, hrest⟩ := List.forall_mem_cons.mp hsettings
    rw [guessedOver_cons hsplit hfirst]
    generalize Datum.united (Fields.get? first fields) _ = value
    have hput : Fields.Ordered (Fields.put first value fields) := Fields.ordered_put hordered
    obtain ⟨hordered', hnames⟩ := ih hrest hput
    refine ⟨hordered', ?_⟩
    rw [hnames, Fields.mem_names_put, List.exists_mem_cons_iff, hsplit, List.head?_cons,
      Option.some.injEq, eq_comm (a := first)]
    tauto

/-- The layer with guessed values is never at fault. Its names are the first ones on the paths of
its variables. -/
theorem generalLayer_names (environment : Environment) :
    ∃ general, environment.generalLayer = .ok general ∧ Fields.Ordered general ∧
      ∀ name, name ∈ Fields.names general ↔ ∃ entry ∈ environment, ∃ rest path,
        rest? entry.1 = some rest ∧ isGeneral rest = true ∧ path? rest = some path ∧
          (Text.split '.' path).head? = some name := by
  have hsettings : ∀ setting ∈ environment.settings isGeneral,
      ∃ first others, Text.split '.' setting.1 = first :: others ∧ first ≠ "" := by
    intro setting hmem
    obtain ⟨_, -, hpath, -⟩ := exists_of_mem_settings hmem
    exact split_of_pathOf?_eq_some hpath
  have hnames := guessedOver_names hsettings (List.Pairwise.nil : Fields.Ordered ([] : List _))
  refine ⟨_, generalLayer_eq environment, (hnames "").1, fun name ↦ ?_⟩
  rw [(hnames name).2, Fields.names, List.map_nil]
  constructor
  · rintro (hmem | ⟨setting, hmem, hname⟩)
    · exact absurd hmem List.not_mem_nil
    · obtain ⟨entry, hentry, rest, hrest, hkeep, hpath, -⟩ := mem_settings_iff.mp hmem
      exact ⟨entry, hentry, rest, setting.1, hrest, hkeep, hpath, hname⟩
  · rintro ⟨entry, hentry, rest, path, hrest, hkeep, hpath, hname⟩
    exact .inr ⟨(path, entry.2),
      mem_settings_iff.mpr ⟨entry, hentry, rest, hrest, hkeep, hpath, rfl⟩, hname⟩

/-- The settings of an environment that is apart make a layer without sections. -/
theorem general_of_apart {environment : Environment} (hapart : environment.Apart) :
    ∃ general, environment.generalLayer = .ok general ∧ Fields.Ordered general ∧
      Fields.get? componentsKey general = none := by
  obtain ⟨general, hgeneral, hordered, hnames⟩ := generalLayer_names environment
  refine ⟨general, hgeneral, hordered, Fields.get?_eq_none_iff.mpr fun hmem ↦ ?_⟩
  obtain ⟨entry, hentry, rest, path, hrest, -, hpath, hname⟩ := (hnames componentsKey).mp hmem
  exact hapart entry hentry (setsComponents_iff_exists.mpr ⟨rest, path, hrest, hpath, hname⟩)

/-! ### Sections -/

theorem stripStart?_components {path : String} {rest : List Char} :
    Text.stripStart? (componentsKey ++ ".").toList path.toList = some rest ↔
      path = componentsKey ++ "." ++ String.ofList rest := by
  rw [Text.stripStart?_eq_some_iff, ← String.toList_inj]
  simp [String.toList_append]

/-- A setting that is not below the components adds nothing to the sections. -/
theorem addComponents_skip {path : String} (hpath : ∀ rest, path ≠ componentsKey ++ "." ++ rest)
    (text : String) (sections : Fields Datum) (others : List (String × String)) :
    addComponents sections ((path, text) :: others) = addComponents sections others := by
  have hstrip : Text.stripStart? (componentsKey ++ ".").toList path.toList = none :=
    Option.eq_none_iff_forall_ne_some.mpr fun rest hrest ↦
      hpath (String.ofList rest) (stripStart?_components.mp hrest)
  rw [addComponents, hstrip]

theorem addComponents_add (rest text : String) (sections : Fields Datum)
    (others : List (String × String)) :
    addComponents sections ((componentsKey ++ "." ++ rest, text) :: others) =
      (addComponent sections rest text).bind fun added ↦ addComponents added others := by
  have hstrip : Text.stripStart? (componentsKey ++ ".").toList
      (componentsKey ++ "." ++ rest).toList = some rest.toList := by
    rw [stripStart?_components, String.ofList_toList]
  rw [addComponents, hstrip]
  simp only [String.ofList_toList]
  cases addComponent sections rest text <;> rfl

/-- Settings that lead elsewhere add nothing to the sections. -/
theorem addComponents_of_apart {environment : Environment} (hapart : environment.Apart)
    (keep : String → Bool) (sections : Fields Datum) (more : List (String × String)) :
    addComponents sections (settings environment keep ++ more) = addComponents sections more := by
  have hpaths := fun setting ↦ @Apart.split_path environment hapart keep setting
  generalize settings environment keep = leading at hpaths
  induction leading with
  | nil => rfl
  | cons setting rest ih =>
    obtain ⟨path, text⟩ := setting
    obtain ⟨first, others, hsplit, hfirst⟩ := hpaths (path, text) List.mem_cons_self
    rw [List.cons_append, addComponents_skip]
    · exact ih fun other hother ↦ hpaths other (List.mem_cons_of_mem _ hother)
    · rintro below rfl
      have hpoint : '.' ∉ componentsKey.toList := by decide
      rw [Text.split_append_point hpoint] at hsplit
      exact hfirst (List.cons.inj hsplit).1.symm

/-- A setting for an option of a component, the first one, makes the section of the component. -/
theorem addComponents_cons {sid : String} (hsid : '.' ∉ sid.toList) (key text : String)
    (more : List (String × String)) :
    addComponents [] ((componentsKey ++ "." ++ sid ++ "." ++ key, text) :: more) =
      addComponents [(sid, .table [(key, .text text)])] more := by
  have hpath : componentsKey ++ "." ++ sid ++ "." ++ key =
      componentsKey ++ "." ++ (sid ++ "." ++ key) := by
    simp only [String.append_assoc]
  have hadd : addComponent [] (sid ++ "." ++ key) text =
      .ok [(sid, .table [(key, .text text)])] := by
    rw [addComponent, Text.splitOnce_append_point hsid]
    rfl
  rw [hpath, addComponents_add, hadd, Except.bind]

/-- The id and the option in the name of a variable are read as they are written. -/
structure Plain (id option : String) : Prop where
  /-- The name has no white space. -/
  blank : ∀ c ∈ (variableName id option).toList, Text.isBlank c = false
  /-- The id has no points. -/
  point : '.' ∉ id.toList
  /-- The id has no steps. -/
  once : ¬ ['_', '_'] <:+: id.toList
  /-- No step of the name is empty. -/
  parts : ∀ part ∈ parts ("COMPONENTS__" ++ id ++ "__" ++ option), part ≠ ""

/-- One variable for an option of a component beside others that are apart: the other layer does not
change, and the sections are the one of the component, with the text as it is. -/
theorem layers_of_variable {before after : Environment} (hbefore : before.Apart)
    (hafter : after.Apart) {id option : String} (hplain : Plain id option) (text : String) :
    ∃ sid key, (Text.trim sid).isEmpty = false ∧ Key.normal sid = Key.normal id ∧
      Key.normal key = Key.normal option ∧
      generalLayer (before ++ (variableName id option, text) :: after) =
        generalLayer (before ++ after) ∧
      componentLayer (before ++ after) = .ok [] ∧
      componentLayer (before ++ (variableName id option, text) :: after) =
        .ok [(componentsKey, .table [(sid, .table [(key, .text text)])])] := by
  obtain ⟨sid, key, hpath, hsid, hempty, hid, hkey⟩ :=
    path?_variable hplain.blank hplain.point hplain.once hplain.parts
  have hrest := rest?_variableName hplain.blank
  have hsettings := settings_cons hrest hpath text after
  have hcomponent := isComponentName_variable id option
  generalize variableName id option = name at hsettings
  generalize "COMPONENTS__" ++ id ++ "__" ++ option = rest at hsettings hcomponent
  refine ⟨sid, key, hempty, hid, hkey, ?_, ?_, ?_⟩
  · rw [generalLayer, generalLayer]
    simp only [settings_append, hsettings, hcomponent, Bool.not_true, Bool.and_false,
      Bool.false_eq_true, if_false]
  · have hall := addComponents_of_apart hbefore (fun _ ↦ true) [] (settings after fun _ ↦ true)
    have hnone := addComponents_of_apart hafter (fun _ ↦ true) [] []
    rw [List.append_nil] at hnone
    rw [componentLayer, settings_append, hall, hnone]
    rfl
  · have hnone :=
      addComponents_of_apart hafter (fun _ ↦ true) [(sid, .table [(key, .text text)])] []
    rw [List.append_nil] at hnone
    rw [componentLayer, settings_append, addComponents_of_apart hbefore, hsettings, if_pos rfl,
      addComponents_cons hsid, hnone]
    rfl

end Environment

end Connectors
