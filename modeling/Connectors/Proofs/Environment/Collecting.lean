import Connectors.Proofs.Environment.Misspelt

/-!
# Variables in any order

The variables of components are gone through one after another, and each adds its text at a place:
under its id, or under its id and the rest of its path as one key (`Environment.place`). No two
variables that lead to different paths have one place, so what has been collected is known by the
texts at the places of the variables gone through (`Environment.Collects`), and the order is not
seen in it (`Collects.unique`).

A variable can be added unless an earlier one made its id a value and it wants a table there, or the
other way round (`Collects.addComponent`). So in every order the sections are collected exactly if
no id is set in both ways (`componentLayer_of_orders`), whichever variable then comes first.
-/

set_option autoImplicit false
set_option relaxedAutoImplicit false

namespace Connectors

namespace Environment

/-! ### Places -/

/-- A place of a text in the sections: the one of an id, or one for a key in the table of an id. -/
abbrev Place : Type := String × Option String

/-- The place of a setting of a component. -/
def place (rest : String) : Place :=
  match Text.splitOnce '.' rest with
  | none => (rest, none)
  | some (id, option) => (id, some option)

/-- The place of a setting, if it is one of a component. -/
def place? (path : String) : Option Place :=
  (Text.stripStart? (componentsKey ++ ".").toList path.toList).map fun rest ↦
    place (String.ofList rest)

/-- The texts of the settings of components, each with its place. -/
def placed (settings : List (String × String)) : List (Place × String) :=
  settings.filterMap fun (path, text) ↦ (place? path).map fun spot ↦ (spot, text)

/-- The path that leads to a place. -/
def pathTo : Place → String
  | (id, none) => componentsKey ++ "." ++ id
  | (id, some option) => componentsKey ++ "." ++ id ++ "." ++ option

/-- A variable has a text for a place. -/
def SetsAt (environment : Environment) (spot : Place) (text : String) : Prop :=
  '.' ∉ spot.1.toList ∧ environment.Sets (pathTo spot) text

/-- Variables set an id as a value and as a table. -/
def SetsBothWays (environment : Environment) (id : String) : Prop :=
  (∃ text, environment.SetsAt (id, none) text) ∧
    ∃ option text, environment.SetsAt (id, some option) text

/-- No two variables stand for one path. -/
def Distinct (environment : Environment) : Prop :=
  (environment.filterMap fun entry ↦ pathOf? entry.1).Nodup

instance (environment : Environment) : Decidable environment.Distinct :=
  inferInstanceAs (Decidable (List.Nodup _))

/-- A text stands at a place. -/
def StandsAt (sections : Fields Datum) (text : String) : Place → Prop
  | (id, none) => (id, .text text) ∈ sections
  | (id, some option) => ∃ fields, (id, .table fields) ∈ sections ∧ (option, .text text) ∈ fields

/-- A value that variables make: a text, or a table of texts with its keys in order. -/
inductive Made : Datum → Prop
  /-- A text. -/
  | text (text : String) : Made (.text text)
  /-- A table of texts. -/
  | table {fields : Fields Datum} (hordered : Fields.Ordered fields) (hsome : fields ≠ [])
    (htexts : ∀ field ∈ fields, ∃ text, field.2 = .text text) : Made (.table fields)

/-- Sections that hold some texts at their places and nothing else. -/
structure Collects (given : List (Place × String)) (sections : Fields Datum) : Prop where
  /-- The ids are in order. -/
  ordered : Fields.Ordered sections
  /-- Each section is made of texts. -/
  made : ∀ entry ∈ sections, Made entry.2
  /-- The texts are those given, each at its place. -/
  stands : ∀ place text, StandsAt sections text place ↔ (place, text) ∈ given

/-- An id that is set as a value and as a table. -/
def Clashes (given : List (Place × String)) (id : String) : Prop :=
  (∃ text, ((id, none), text) ∈ given) ∧ ∃ option text, ((id, some option), text) ∈ given

variable {given others : List (Place × String)} {sections added : Fields Datum}

theorem collects_nil : Collects [] [] := by
  refine ⟨List.Pairwise.nil, by simp, fun place text ↦ ?_⟩
  obtain ⟨id, _ | option⟩ := place <;> simp [StandsAt]

/-- What stands under an id is one value. -/
theorem Collects.value_unique (hcollects : Collects given sections) {id : String}
    {first second : Datum} (hfirst : (id, first) ∈ sections) (hsecond : (id, second) ∈ sections) :
    first = second := by
  have hpair := List.inj_on_of_nodup_map hcollects.ordered.nodup_names hfirst hsecond rfl
  exact (Prod.mk.inj hpair).2

/-- The texts of a table are those given for its id. -/
theorem Collects.mem_table_iff (hcollects : Collects given sections) {id option text : String}
    {fields : Fields Datum} (hfields : (id, .table fields) ∈ sections) :
    (option, .text text) ∈ fields ↔ ((id, some option), text) ∈ given := by
  rw [← hcollects.stands]
  refine ⟨fun hmem ↦ ⟨fields, hfields, hmem⟩, ?_⟩
  rintro ⟨found, hfound, hmem⟩
  obtain rfl := Datum.table.inj (hcollects.value_unique hfields hfound)
  exact hmem

/-- Nothing that was collected clashes. -/
theorem Collects.not_clashes (hcollects : Collects given sections) (id : String) :
    ¬Clashes given id := by
  rintro ⟨⟨text, hvalue⟩, option, other, htable⟩
  obtain ⟨fields, hfields, -⟩ := (hcollects.stands (id, some option) other).mpr htable
  cases hcollects.value_unique ((hcollects.stands (id, none) text).mpr hvalue) hfields

/-- What the table of an id has, it has wherever the same texts are collected. -/
theorem Collects.mem_table_of_mem (hcollects : Collects given sections)
    (hothers : Collects others added) (hsame : ∀ setting, setting ∈ given ↔ setting ∈ others)
    {id : String} {fields found : Fields Datum} (hfields : (id, .table fields) ∈ sections)
    (hfound : (id, .table found) ∈ added) {field : String × Datum} (hfield : field ∈ fields) :
    field ∈ found := by
  have hmade := hcollects.made _ hfields
  cases hmade with
  | table _ _ htexts =>
    obtain ⟨option, value⟩ := field
    obtain ⟨text, rfl⟩ := htexts _ hfield
    exact (hothers.mem_table_iff hfound).mpr
      ((hsame _).mp ((hcollects.mem_table_iff hfields).mp hfield))

theorem Collects.mem_of_mem (hcollects : Collects given sections) (hothers : Collects others added)
    (hsame : ∀ setting, setting ∈ given ↔ setting ∈ others) {entry : String × Datum}
    (hentry : entry ∈ sections) : entry ∈ added := by
  obtain ⟨id, value⟩ := entry
  have hmade := hcollects.made _ hentry
  cases hmade with
  | text text =>
    have hgiven := (hcollects.stands (id, none) text).mp hentry
    exact (hothers.stands (id, none) text).mpr ((hsame _).mp hgiven)
  | @table fields hordered hsome htexts =>
    obtain ⟨⟨option, held⟩, hfield⟩ := List.exists_mem_of_ne_nil _ hsome
    obtain ⟨text, rfl⟩ := htexts _ hfield
    have hgiven := (hcollects.mem_table_iff hentry).mp hfield
    obtain ⟨found, hfound, -⟩ := (hothers.stands (id, some option) text).mpr ((hsame _).mp hgiven)
    have hmadeOther := hothers.made _ hfound
    cases hmadeOther with
    | table hfoundOrdered _ _ =>
      obtain rfl : fields = found := hordered.eq_of_mem_iff hfoundOrdered fun _ ↦
        ⟨hcollects.mem_table_of_mem hothers hsame hentry hfound,
          hothers.mem_table_of_mem hcollects (fun setting ↦ (hsame setting).symm) hfound hentry⟩
      exact hfound

/-- The same texts at the same places make the same sections. -/
theorem Collects.unique (hcollects : Collects given sections) (hothers : Collects others added)
    (hsame : ∀ setting, setting ∈ given ↔ setting ∈ others) : sections = added :=
  hcollects.ordered.eq_of_mem_iff hothers.ordered fun _ ↦
    ⟨hcollects.mem_of_mem hothers hsame,
      hothers.mem_of_mem hcollects fun setting ↦ (hsame setting).symm⟩

/-! ### One more text -/

/-- Nothing was given for an id that has no section. -/
theorem Collects.not_mem_of_none (hcollects : Collects given sections) {id : String}
    (hnone : Fields.get? id sections = none) (option : Option String) (text : String) :
    ((id, option), text) ∉ given := by
  have hempty : ∀ value, (id, value) ∉ sections := fun value hmem ↦
    Fields.get?_eq_none_iff.mp hnone (Fields.mem_names_iff.mpr ⟨value, hmem⟩)
  rw [← hcollects.stands]
  cases option with
  | none => exact hempty _
  | some option => exact fun ⟨fields, hfields, _⟩ ↦ hempty _ hfields

/-- What stands elsewhere is not touched by a put. -/
theorem standsAt_put_of_ne (hordered : Fields.Ordered sections) {id text : String} {spot : Place}
    (hid : spot.1 ≠ id) (value : Datum) :
    StandsAt (Fields.put id value sections) text spot ↔ StandsAt sections text spot := by
  obtain ⟨other, _ | option⟩ := spot <;> simp [StandsAt, Fields.mem_put_iff hordered, hid]

/-- A text in the place of a section that is not there. -/
theorem Collects.put_value (hcollects : Collects given sections) {id : String}
    (hnone : Fields.get? id sections = none) (text : String) :
    Collects (given ++ [((id, none), text)]) (Fields.put id (.text text) sections) := by
  have hempty := hcollects.not_mem_of_none hnone
  refine ⟨Fields.ordered_put hcollects.ordered, fun entry hentry ↦ ?_, ?_⟩
  · rcases Fields.mem_of_mem_put hentry with rfl | hentry
    · exact .text text
    · exact hcollects.made entry hentry
  rintro ⟨other, option⟩ held
  rw [List.mem_append, List.mem_singleton]
  by_cases hid : other = id
  · subst hid
    cases option <;> simp [StandsAt, Fields.mem_put_iff hcollects.ordered, hempty]
  · rw [standsAt_put_of_ne hcollects.ordered hid, hcollects.stands]
    simp [hid]

/-- A text under a key that is not there, in the table of an id that is not set as a value. -/
theorem Collects.put_table (hcollects : Collects given sections) {id option : String}
    {fields : Fields Datum} (hordered : Fields.Ordered fields)
    (htexts : ∀ field ∈ fields, ∃ text, field.2 = .text text)
    (hheld : ∀ option text, (option, .text text) ∈ fields ↔ ((id, some option), text) ∈ given)
    (hvalue : ∀ text, ((id, none), text) ∉ given) (hnew : ∀ text, ((id, some option), text) ∉ given)
    (text : String) : Collects (given ++ [((id, some option), text)])
      (Fields.put id (.table (Fields.put option (.text text) fields)) sections) := by
  refine ⟨Fields.ordered_put hcollects.ordered, fun entry hentry ↦ ?_, ?_⟩
  · rcases Fields.mem_of_mem_put hentry with rfl | hentry
    · refine .table (Fields.ordered_put hordered) ?_ fun field hfield ↦ ?_
      · exact List.ne_nil_of_mem ((Fields.mem_put_iff hordered).mpr (.inl rfl))
      · rcases Fields.mem_of_mem_put hfield with rfl | hfield
        · exact ⟨text, rfl⟩
        · exact htexts field hfield
    · exact hcollects.made entry hentry
  rintro ⟨other, key⟩ held
  rw [List.mem_append, List.mem_singleton]
  by_cases hid : other = id
  · subst hid
    cases key with
    | none => simp [StandsAt, Fields.mem_put_iff hcollects.ordered, hvalue]
    | some key =>
      simp only [StandsAt, Prod.mk.injEq, Datum.table.injEq, true_and, ne_eq, not_true, false_and,
        or_false, exists_eq_left, Option.some.injEq, Fields.mem_put_iff hcollects.ordered,
        Fields.mem_put_iff hordered, Datum.text.injEq, hheld]
      by_cases hkey : key = option
      · subst hkey
        simp [hnew]
      · simp [hkey]
  · rw [standsAt_put_of_ne hcollects.ordered hid, hcollects.stands]
    simp [hid]

/-- A text that is added at a new place is collected with the others, or its id clashes. -/
theorem Collects.addComponent (hcollects : Collects given sections) {rest : String}
    (hnew : ∀ text, (place rest, text) ∉ given) (text : String) :
    (∃ added, addComponent sections rest text = .ok added ∧
      Collects (given ++ [(place rest, text)]) added) ∨
    addComponent sections rest text = .error (.valueAndTable rest) ∧
      Clashes (given ++ [(place rest, text)]) (place rest).1 := by
  have hlater : ∀ {setting}, setting ∈ given → setting ∈ given ++ [(place rest, text)] :=
    fun hmem ↦ List.mem_append_left _ hmem
  have hlast : (place rest, text) ∈ given ++ [(place rest, text)] := by simp
  have hmade : ∀ {id value}, Fields.get? id sections = some value →
      (id, value) ∈ sections ∧ Made value :=
    fun hget ↦ ⟨Fields.mem_of_get?_eq_some hget, hcollects.made _ (Fields.mem_of_get?_eq_some hget)⟩
  rw [Environment.addComponent]
  generalize hplace : place rest = spot at hnew hlater hlast ⊢
  rw [place] at hplace
  cases hsplit : Text.splitOnce '.' rest with
  | none =>
    simp only [hsplit] at hplace ⊢
    subst hplace
    cases hget : Fields.get? rest sections with
    | none =>
      rw [Fields.has, hget]
      exact .inl ⟨_, rfl, hcollects.put_value hget text⟩
    | some value =>
      rw [Fields.has, hget]
      refine .inr ⟨rfl, ⟨text, hlast⟩, ?_⟩
      obtain ⟨hmem, hvalue⟩ := hmade hget
      cases hvalue with
      | text held => exact absurd ((hcollects.stands (rest, none) held).mp hmem) (hnew held)
      | table _ hsome htexts =>
        -- A table is made with its first key, so there is one that wants the id to be a table.
        obtain ⟨⟨option, value⟩, hfield⟩ := List.exists_mem_of_ne_nil _ hsome
        obtain ⟨held, rfl⟩ := htexts _ hfield
        exact ⟨option, held, hlater ((hcollects.mem_table_iff hmem).mp hfield)⟩
  | some parts =>
    obtain ⟨id, option⟩ := parts
    simp only [hsplit] at hplace ⊢
    subst hplace
    cases hget : Fields.get? id sections with
    | none =>
      have hempty := hcollects.not_mem_of_none hget
      exact .inl ⟨_, rfl, hcollects.put_table List.Pairwise.nil (by simp)
        (fun option text ↦ iff_of_false List.not_mem_nil (hempty _ _)) (hempty none) hnew text⟩
    | some value =>
      obtain ⟨hmem, hvalue⟩ := hmade hget
      cases hvalue with
      | text held =>
        exact .inr ⟨rfl, ⟨held, hlater ((hcollects.stands (id, none) held).mp hmem)⟩, option, text,
          hlast⟩
      | @table fields hordered _ htexts =>
        refine .inl ⟨_, rfl, hcollects.put_table hordered htexts
          (fun option text ↦ hcollects.mem_table_iff hmem) (fun held hheld ↦ ?_) hnew text⟩
        cases hcollects.value_unique hmem ((hcollects.stands (id, none) held).mpr hheld)

/-! ### Every path has its place -/

/-- The only path to a place is the one of its id and its key. An id has no point, and a key may
have some. -/
theorem place_eq_iff {rest : String} {spot : Place} :
    place rest = spot ↔ '.' ∉ spot.1.toList ∧ componentsKey ++ "." ++ rest = pathTo spot := by
  obtain ⟨id, _ | option⟩ := spot
  · rw [pathTo, String.append_right_inj, place]
    cases hsplit : Text.splitOnce '.' rest with
    | none =>
      have hpoint := Text.splitOnce_eq_none_iff.mp hsplit
      simp only [Prod.mk.injEq, and_true]
      exact ⟨fun hid ↦ ⟨hid ▸ hpoint, hid⟩, And.right⟩
    | some parts =>
      refine iff_of_false (by simp) fun ⟨hpoint, hid⟩ ↦ ?_
      rw [hid, Text.splitOnce_eq_none_iff.mpr hpoint] at hsplit
      exact absurd hsplit (Option.some_ne_none _).symm
  · rw [pathTo, String.append_assoc, String.append_assoc, String.append_assoc, String.append_assoc,
      String.append_right_inj, String.append_right_inj, ← String.append_assoc, place]
    constructor
    · intro hplace
      cases hsplit : Text.splitOnce '.' rest with
      | none => simp [hsplit] at hplace
      | some parts =>
        obtain ⟨before, after⟩ := parts
        simp only [hsplit, Prod.mk.injEq, Option.some.injEq] at hplace
        obtain ⟨rfl, rfl⟩ := hplace
        exact ⟨Text.not_mem_of_splitOnce_eq_some hsplit, Text.splitOnce_eq_some hsplit⟩
    · rintro ⟨hpoint, rfl⟩
      rw [Text.splitOnce_append_point hpoint]

theorem place?_eq_some_iff {path : String} {spot : Place} :
    place? path = some spot ↔ '.' ∉ spot.1.toList ∧ path = pathTo spot := by
  rw [place?, Option.map_eq_some_iff]
  simp only [stripStart?_components, place_eq_iff]
  constructor
  · rintro ⟨rest, rfl, hplace⟩
    exact hplace
  · rintro ⟨hpoint, rfl⟩
    have hbelow : ∃ rest, pathTo spot = componentsKey ++ "." ++ rest := by
      obtain ⟨id, _ | option⟩ := spot
      · exact ⟨id, rfl⟩
      · exact ⟨id ++ "." ++ option, by simp only [pathTo, String.append_assoc]⟩
    obtain ⟨rest, hrest⟩ := hbelow
    exact ⟨rest.toList, by rw [String.ofList_toList, hrest], hpoint,
      by rw [String.ofList_toList, hrest]⟩

/-- A setting that is not below the components has no place. -/
theorem place?_eq_none {path : String} (hpath : ∀ rest, path ≠ componentsKey ++ "." ++ rest) :
    place? path = none := by
  rw [place?, Option.map_eq_none_iff]
  exact Option.eq_none_iff_forall_ne_some.mpr fun rest hrest ↦
    hpath (String.ofList rest) (stripStart?_components.mp hrest)

theorem placed_skip {path : String} (hpath : ∀ rest, path ≠ componentsKey ++ "." ++ rest)
    (text : String) (settings : List (String × String)) :
    placed ((path, text) :: settings) = placed settings := by
  simp only [placed, List.filterMap_cons, place?_eq_none hpath, Option.map_none]

theorem placed_add (rest text : String) (settings : List (String × String)) :
    placed ((componentsKey ++ "." ++ rest, text) :: settings) =
      (place rest, text) :: placed settings := by
  have hplace : place? (componentsKey ++ "." ++ rest) = some (place rest) :=
    place?_eq_some_iff.mpr (place_eq_iff.mp rfl)
  simp only [placed, List.filterMap_cons, hplace, Option.map_some]

theorem mem_placed_iff {environment : Environment} {spot : Place} {text : String} :
    (spot, text) ∈ placed (environment.settings fun _ ↦ true) ↔ environment.SetsAt spot text := by
  have hsettings : ∀ path, (path, text) ∈ environment.settings (fun _ ↦ true) ↔
      environment.Sets path text :=
    fun path ↦ by simp [mem_settings_iff, Sets, pathOf?, Option.bind_eq_some_iff]
  rw [placed, List.mem_filterMap, SetsAt]
  simp only [Option.map_eq_some_iff, place?_eq_some_iff]
  constructor
  · rintro ⟨⟨path, held⟩, hmem, found, ⟨hpoint, hpath⟩, hfound⟩
    obtain ⟨rfl, rfl⟩ := Prod.mk.inj hfound
    exact ⟨hpoint, (hsettings _).mp (hpath ▸ hmem)⟩
  · rintro ⟨hpoint, hsets⟩
    exact ⟨(pathTo spot, text), (hsettings _).mpr hsets, spot, ⟨hpoint, rfl⟩, rfl⟩

/-- Distinct paths lead to distinct places. -/
theorem nodup_placed {environment : Environment} (hdistinct : environment.Distinct) :
    ((placed (environment.settings fun _ ↦ true)).map (·.1)).Nodup := by
  have hpaths : (environment.settings fun _ ↦ true).map (·.1) =
      environment.filterMap fun entry ↦ pathOf? entry.1 := by
    rw [settings, List.map_filterMap]
    refine List.filterMap_congr fun entry _ ↦ ?_
    have hkept : (rest? entry.1).filter (fun _ ↦ true) = rest? entry.1 := by
      cases rest? entry.1 <;> simp [Option.filter_some]
    simp [pathOf?, hkept, Option.map_bind, Function.comp_def]
  have hplaces : (placed (environment.settings fun _ ↦ true)).map (·.1) =
      ((environment.settings fun _ ↦ true).map (·.1)).filterMap place? := by
    rw [placed, List.map_filterMap, List.filterMap_map]
    refine List.filterMap_congr fun setting _ ↦ ?_
    simp [Option.map_map, Function.comp_def]
  rw [hplaces, hpaths]
  refine hdistinct.filterMap fun first second spot hfirst hsecond ↦ ?_
  rw [(place?_eq_some_iff.mp hfirst).2, (place?_eq_some_iff.mp hsecond).2]

/-! ### All variables -/

/-- Texts with places of their own are collected one after another, or some id clashes. -/
theorem Collects.addComponents {settings : List (String × String)}
    (hcollects : Collects given sections) (hnodup : ((given ++ placed settings).map (·.1)).Nodup) :
    (∃ added, addComponents sections settings = .ok added ∧
      Collects (given ++ placed settings) added) ∨
    ∃ rest, addComponents sections settings = .error (.valueAndTable rest) ∧
      Clashes (given ++ placed settings) (place rest).1 := by
  induction settings generalizing given sections with
  | nil => exact .inl ⟨sections, rfl, by simpa [placed] using hcollects⟩
  | cons setting others ih =>
    obtain ⟨path, text⟩ := setting
    by_cases hbelow : ∃ rest, path = componentsKey ++ "." ++ rest
    · obtain ⟨rest, rfl⟩ := hbelow
      rw [placed_add] at hnodup ⊢
      rw [addComponents_add]
      have hnew : ∀ text, (place rest, text) ∉ given := by
        intro text hmem
        rw [List.map_append, List.map_cons, List.nodup_append] at hnodup
        exact hnodup.2.2 _ (List.mem_map_of_mem hmem) _ List.mem_cons_self rfl
      rw [List.append_cons] at hnodup ⊢
      rcases hcollects.addComponent hnew text with ⟨added, hadd, hadded⟩ | ⟨hadd, hvalue, htable⟩
      · rw [hadd]
        exact ih hadded hnodup
      · rw [hadd]
        exact .inr ⟨rest, rfl, hvalue.imp fun _ ↦ List.mem_append_left _,
          htable.imp fun _ ↦ Exists.imp fun _ ↦ List.mem_append_left _⟩
    · rw [placed_skip (not_exists.mp hbelow)] at hnodup ⊢
      rw [addComponents_skip (not_exists.mp hbelow)]
      exact ih hcollects hnodup

variable {environment order : Environment}

theorem Distinct.perm (hdistinct : environment.Distinct) (horder : order.Perm environment) :
    order.Distinct :=
  (horder.filterMap _).nodup_iff.mpr hdistinct

theorem setsAt_of_perm (horder : order.Perm environment) {spot : Place} {text : String} :
    order.SetsAt spot text ↔ environment.SetsAt spot text := by
  simp only [SetsAt, Sets, horder.mem_iff]

/-- An order of variables with paths of their own has sections with the text of each at its place,
or an id that they set both ways. -/
theorem componentLayer_of_perm (hdistinct : environment.Distinct)
    (horder : order.Perm environment) :
    (∃ sections, order.componentLayer =
        .ok (if sections.isEmpty then [] else [(componentsKey, .table sections)]) ∧
      Collects (placed (environment.settings fun _ ↦ true)) sections) ∨
    ∃ rest, order.componentLayer = .error (.valueAndTable rest) ∧
      environment.SetsBothWays (place rest).1 := by
  have hsame : ∀ setting, setting ∈ placed (order.settings fun _ ↦ true) ↔
      setting ∈ placed (environment.settings fun _ ↦ true) := by
    rintro ⟨spot, text⟩
    rw [mem_placed_iff, mem_placed_iff, setsAt_of_perm horder]
  have hnodup := nodup_placed (hdistinct.perm horder)
  rw [← List.nil_append (placed _)] at hnodup
  have hrun := collects_nil.addComponents hnodup
  rw [List.nil_append] at hrun
  rw [componentLayer]
  rcases hrun with ⟨sections, hadd, hcollects⟩ | ⟨rest, hadd, hvalue, htable⟩
  · rw [hadd]
    exact .inl ⟨sections, rfl, hcollects.ordered, hcollects.made, fun spot text ↦
      (hcollects.stands spot text).trans (hsame _)⟩
  · rw [hadd]
    simp only [hsame, mem_placed_iff] at hvalue htable
    exact .inr ⟨rest, rfl, hvalue, htable⟩

/-- The order of variables is not seen in the layer of components. If no two variables stand for one
path, then in every order the layer is at fault exactly if some id is set both ways, and the fault
names such an id. If none is, every order makes the same sections: they have the text of each
variable as it is, under its id or under its id and the rest of its path as one key, and nothing
else. -/
theorem componentLayer_of_orders (hdistinct : environment.Distinct) :
    (∀ order : Environment, order.Perm environment →
      ((∃ fault, order.componentLayer = .error fault) ↔ ∃ id, environment.SetsBothWays id) ∧
      ∀ fault, order.componentLayer = .error fault →
        ∃ rest, fault = .valueAndTable rest ∧ environment.SetsBothWays (place rest).1) ∧
    ((¬∃ id, environment.SetsBothWays id) → ∃ sections,
      (∀ order : Environment, order.Perm environment → order.componentLayer =
        .ok (if sections.isEmpty then [] else [(componentsKey, .table sections)])) ∧
      Fields.Ordered sections ∧ (∀ entry ∈ sections, Made entry.2) ∧
      ∀ spot text, StandsAt sections text spot ↔ environment.SetsAt spot text) := by
  have hboth :
      ∀ id, environment.SetsBothWays id ↔ Clashes (placed (environment.settings fun _ ↦ true)) id :=
    fun id ↦ by simp only [SetsBothWays, Clashes, mem_placed_iff]
  refine ⟨fun order horder ↦ ?_, fun hnone ↦ ?_⟩
  · rcases componentLayer_of_perm hdistinct horder with
      ⟨sections, hlayer, hcollects⟩ | ⟨rest, hlayer, hrest⟩
    · have hnone : ¬∃ id, environment.SetsBothWays id := fun ⟨id, hid⟩ ↦
        hcollects.not_clashes id ((hboth id).mp hid)
      rw [hlayer]
      exact ⟨iff_of_false (by simp) hnone, by simp⟩
    · rw [hlayer]
      refine ⟨iff_of_true ⟨_, rfl⟩ ⟨_, hrest⟩, fun fault hfault ↦ ?_⟩
      obtain rfl := Except.error.inj hfault
      exact ⟨rest, rfl, hrest⟩
  · have hsections : ∀ order : Environment, order.Perm environment → ∃ sections,
        order.componentLayer =
          .ok (if sections.isEmpty then [] else [(componentsKey, .table sections)]) ∧
        Collects (placed (environment.settings fun _ ↦ true)) sections := by
      intro order horder
      rcases componentLayer_of_perm hdistinct horder with hfound | ⟨rest, -, hrest⟩
      · exact hfound
      · exact absurd ⟨_, hrest⟩ hnone
    obtain ⟨sections, -, hcollects⟩ := hsections environment (.refl _)
    refine ⟨sections, fun order horder ↦ ?_, hcollects.ordered, hcollects.made, fun spot text ↦ ?_⟩
    · obtain ⟨others, hlayer, hothers⟩ := hsections order horder
      rw [hlayer, hcollects.unique hothers fun _ ↦ Iff.rfl]
    · rw [hcollects.stands, mem_placed_iff]

/-- Two variables of one section in any order, and two that set an id both ways, the later one
first. -/
theorem componentLayer_of_orders_mq :
    let environment : Environment := [("CONFLUX_COMPONENTS__MQ__PROXY__PORT", "08080"),
      ("CONFLUX_COMPONENTS__MQ__NAME", "local")]
    let value : String × String := ("CONFLUX_COMPONENTS__MQ", "on")
    let option : String × String := ("CONFLUX_COMPONENTS__MQ__NAME", "local")
    (∃ sections, (∀ order : Environment, order.Perm environment → order.componentLayer =
        .ok (if sections.isEmpty then [] else [(componentsKey, .table sections)])) ∧
      StandsAt sections "08080" ("mq", some "proxy.port") ∧
      StandsAt sections "local" ("mq", some "name")) ∧
    ∃ rest, componentLayer [option, value] = .error (.valueAndTable rest) ∧
      SetsBothWays [value, option] (place rest).1 := by
  intro environment value option
  have hsets : ∀ {environment : Environment} {entry : String × String} (spot : Place),
      entry ∈ environment → '.' ∉ spot.1.toList → pathOf? entry.1 = some (pathTo spot) →
        environment.SetsAt spot entry.2 :=
    fun spot hentry hpoint hpath ↦ ⟨hpoint, _, hentry, hpath, rfl⟩
  constructor
  · have hdistinct : environment.Distinct := by decide +kernel
    obtain ⟨hfault, hsections⟩ := componentLayer_of_orders hdistinct
    have hnone : ¬∃ id, environment.SetsBothWays id := by
      rw [← (hfault environment (.refl _)).1]
      rintro ⟨fault, hlayer⟩
      have hok : environment.componentLayer.isOk = true := by decide +kernel
      rw [hlayer] at hok
      exact absurd hok Bool.false_ne_true
    obtain ⟨sections, horders, -, -, hstands⟩ := hsections hnone
    refine ⟨sections, horders, (hstands _ _).mpr ?_, (hstands _ _).mpr ?_⟩
    · exact hsets _ List.mem_cons_self (by decide +kernel) (by decide +kernel)
    · exact hsets _ (List.mem_cons_of_mem _ List.mem_cons_self) (by decide +kernel)
        (by decide +kernel)
  · have hdistinct : Distinct [value, option] := by decide +kernel
    obtain ⟨hfault, -⟩ := componentLayer_of_orders hdistinct
    obtain ⟨hiff, hnames⟩ := hfault [option, value] (.swap _ _ _)
    have hvalue : SetsAt [value, option] ("mq", none) "on" :=
      hsets _ List.mem_cons_self (by decide +kernel) (by decide +kernel)
    have hoption : SetsAt [value, option] ("mq", some "name") "local" :=
      hsets _ (List.mem_cons_of_mem _ List.mem_cons_self) (by decide +kernel) (by decide +kernel)
    obtain ⟨fault, hlayer⟩ := hiff.mpr ⟨"mq", ⟨_, hvalue⟩, _, _, hoption⟩
    obtain ⟨rest, rfl, hboth⟩ := hnames fault hlayer
    exact ⟨rest, hlayer, hboth⟩

end Environment

end Connectors
