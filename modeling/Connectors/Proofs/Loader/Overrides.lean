import Connectors.Proofs.Loader.OneOption
import Connectors.Proofs.Sections.Routes

/-!
# Values set by the program

The values that a program sets by calls (`Loader.Call`) are put over each other with their keys as
they are, and take the spellings of the other sources only when all calls have been made. An option
is reached in one way (`Layer.Reaches`) when every call spells the id alike and leads to the option
by the same names, with no value in the place of a table and no table in the place of the value. If
all calls reach the option in one way the last one wins: nothing is reported as set twice for the
option, its component has one key for it, and the value is that of the last call (`last_call_wins`).

Calls that reach an option in two ways do not replace each other. Two spellings are both kept and
are in conflict when the section is bound, and a nested table beside a dotted key makes the load
fail (`calls_in_conflict`).
-/

set_option autoImplicit false
set_option relaxedAutoImplicit false

namespace Connectors

open Spelling

/-! ### Calls -/

namespace Loader

/-- A call that sets values. -/
inductive Call where
  /-- A value is set at a dotted key. -/
  | set (key : String) (value : Datum)
  /-- A whole configuration is put over everything set before. -/
  | merge (config : Config)

/-- The layer of values that a call sets. -/
def Call.layer : Call → Layer
  | set key value => .single (Text.split '.' key) value
  | merge config => .ok config.fields

/-- The loader after a call. -/
def call (loader : Loader) : Call → Loader
  | .set key value => loader.set key value
  | .merge config => loader.merge config

/-- The loader after calls, one after another. -/
def calls (loader : Loader) (calls : List Call) : Loader :=
  calls.foldl call loader

/-- What the values set by the program are put over. -/
def beneath (around : Surroundings) (loader : Loader) (files : Layer) : Layer :=
  if loader.usesEnvironment then
    (files.merge around.environment.generalLayer).relaxedMerge around.environment.componentLayer
  else files

theorem mergeRest_eq (around : Surroundings) (loader : Loader) (files : Layer) :
    loader.mergeRest around files = (loader.beneath around files).relaxedMerge loader.overrides :=
  rfl

/-- Calls change nothing but the values set by the program. -/
theorem calls_eq (loader : Loader) (calls : List Call) : loader.calls calls =
    { loader with
      overrides := calls.foldl (fun layer call ↦ layer.merge call.layer) loader.overrides } := by
  induction calls generalizing loader with
  | nil => rfl
  | cons first rest ih =>
    have hstep : loader.calls (first :: rest) = (loader.call first).calls rest := rfl
    rw [hstep, ih]
    cases first <;> rfl

end Loader

/-! ### Reaching an option in one way -/

namespace Layer

open Datum (routes at? pathAlong Orderly Fits fieldRoutes fieldLeaves)
open Relaxed ComponentSection

/-- A route to an option, in any spelling, of the component with the id `sid`. -/
def LeadsTo (sid : String) (route : List String) : List String → Prop
  | first :: second :: names => first = componentsKey ∧ second = sid ∧
    Key.normal (pathAlong "" names) = Key.normal (pathAlong "" route)
  | _ => False

instance (sid : String) (route : List String) : DecidablePred (LeadsTo sid route)
  | [] => isFalse not_false
  | [_] => isFalse not_false
  | first :: second :: names => inferInstanceAs (Decidable (first = componentsKey ∧ second = sid ∧
    Key.normal (pathAlong "" names) = Key.normal (pathAlong "" route)))

/-- Settings that have an option of a component in one way, if they have it at all: the id is
spelled `sid`, and the names on `route` lead to it. -/
structure Reaches (sid : String) (route : List String) (fields : List (String × Datum)) : Prop where
  /-- The names of all tables are in order. -/
  orderly : (Datum.table fields).Orderly
  /-- There are only tables on the way, and no table at its end. -/
  fits : Fits (componentsKey :: sid :: route) (.table fields)
  /-- The id has no other spelling. -/
  ids : ∀ name ∈ Fields.names (sections (.ok fields)), Key.normal name = Key.normal sid → name = sid
  /-- No other route leads to the option. -/
  only : ∀ leaf ∈ routes (.table fields), LeadsTo sid route leaf.1 →
    leaf.1 = componentsKey :: sid :: route

instance (sid : String) (route : List String) (fields : List (String × Datum)) :
    Decidable (Reaches sid route fields) :=
  decidable_of_iff ((Datum.table fields).Orderly ∧
      Fits (componentsKey :: sid :: route) (.table fields) ∧
      (∀ name ∈ Fields.names (sections (.ok fields)),
        Key.normal name = Key.normal sid → name = sid) ∧
      ∀ leaf ∈ routes (.table fields), LeadsTo sid route leaf.1 →
        leaf.1 = componentsKey :: sid :: route)
    ⟨fun ⟨horderly, hfits, hids, honly⟩ ↦ ⟨horderly, hfits, hids, honly⟩,
      fun ⟨horderly, hfits, hids, honly⟩ ↦ ⟨horderly, hfits, hids, honly⟩⟩

section Reaches

variable {sid : String} {route : List String} {fields earlier later : List (String × Datum)}

theorem Reaches.ordered (hreaches : Reaches sid route fields) : Fields.Ordered fields :=
  (Datum.orderly_table_iff.mp hreaches.orderly).1

/-- The sections are in a table, if there are any. -/
theorem Reaches.table (hreaches : Reaches sid route fields) {value : Datum}
    (hget : Fields.get? componentsKey fields = some value) :
    ∃ sections, value = .table sections := by
  obtain ⟨entries, hentries, hfound⟩ := Datum.fits_cons_iff.mp hreaches.fits
  obtain rfl := Datum.table.inj hentries
  obtain ⟨given, rfl, -⟩ := Datum.fits_cons_iff.mp (hfound value hget)
  exact ⟨given, rfl⟩

/-- The ids of settings over others are ids of one of them. -/
theorem Reaches.names_overlay (hearlier : Reaches sid route earlier)
    (hlater : Reaches sid route later) {name : String}
    (hname : name ∈ Fields.names (sections (.ok (Datum.overlayFields earlier later)))) :
    name ∈ Fields.names (sections (.ok earlier)) ∨ name ∈ Fields.names (sections (.ok later)) := by
  have hget := @Datum.get?_overlayFields componentsKey earlier later hlater.ordered.nodup_names
  cases hsecond : Fields.get? componentsKey later with
  | none =>
    rw [hsecond] at hget
    left
    rwa [sections, hget] at hname
  | some value =>
    obtain ⟨given, rfl⟩ := hlater.table hsecond
    rw [hsecond] at hget
    rw [sections_eq hsecond]
    cases hfirst : Fields.get? componentsKey earlier with
    | none =>
      rw [hfirst] at hget
      right
      rwa [sections_eq hget] at hname
    | some value =>
      obtain ⟨held, rfl⟩ := hearlier.table hfirst
      have hunited : Fields.get? componentsKey (Datum.overlayFields earlier later) =
          some (.table (Datum.overlayFields held given)) := by
        rw [hget, hfirst, ← Datum.overlay_tables]
        rfl
      rw [sections_eq hunited, Datum.mem_names_overlayFields] at hname
      rwa [sections_eq hfirst]

/-- Settings over others that have the option in the same way: they have it in this way too, with
the later value, or else with the earlier one. -/
theorem Reaches.overlay (hearlier : Reaches sid route earlier) (hlater : Reaches sid route later) :
    Reaches sid route (Datum.overlayFields earlier later) ∧
      at? (componentsKey :: sid :: route) (.table (Datum.overlayFields earlier later)) =
        (at? (componentsKey :: sid :: route) (.table later)).or
          (at? (componentsKey :: sid :: route) (.table earlier)) := by
  have horderly := Datum.orderly_overlay _ _ hearlier.orderly hlater.orderly
  obtain ⟨hfits, hat⟩ := Datum.fits_overlay hlater.orderly hearlier.fits hlater.fits
  rw [Datum.overlay_tables] at horderly hfits hat
  refine ⟨⟨horderly, hfits, fun name hname ↦ ?_, fun leaf hleaf ↦ ?_⟩, hat⟩
  · exact (hearlier.names_overlay hlater hname).elim (hearlier.ids name) (hlater.ids name)
  · rw [← Datum.overlay_tables] at hleaf
    exact (Datum.mem_routes_overlay hearlier.orderly hlater.orderly hleaf).elim (hlater.only leaf)
      (hearlier.only leaf)

theorem reaches_nil : Reaches sid route [] :=
  ⟨⟨List.Pairwise.nil, trivial⟩, trivial, fun _ hname ↦ absurd hname List.not_mem_nil,
    fun _ hleaf ↦ absurd hleaf List.not_mem_nil⟩

/-! ### What is set for the option -/

/-- The section that settings have for the component, and all its values for the option. -/
theorem Reaches.section_cases (hreaches : Reaches sid route fields) (hroute : route ≠ []) :
    find? sid (sections (.ok fields)) = none ∧
        at? (componentsKey :: sid :: route) (.table fields) = none ∨
      ∃ entries, find? sid (sections (.ok fields)) = some (sid, .table entries) ∧
        (fieldLeaves "" entries).filter (fun leaf ↦ Key.agree leaf.1 (pathAlong "" route)) =
          ((at? (componentsKey :: sid :: route) (.table fields)).map fun leaf ↦
            (pathAlong "" route, leaf)).toList := by
  cases hget : Fields.get? componentsKey fields with
  | none =>
    left
    rw [sections, hget, at?, hget]
    exact ⟨rfl, rfl⟩
  | some value =>
    obtain ⟨given, rfl⟩ := hreaches.table hget
    have hgiven := Datum.orderly_of_get? hreaches.orderly hget
    have hnames := (Datum.orderly_table_iff.mp hgiven).1.nodup_names
    have honly : Only sid sid given := fun field hfield hname ↦ by
      refine hreaches.ids field.1 ?_ hname
      rw [sections_eq hget]
      exact List.mem_map_of_mem hfield
    have hat : at? (componentsKey :: sid :: route) (.table fields) =
        (Fields.get? sid given).bind (at? route) := by
      rw [at?, hget, Option.bind_some, at?]
    rw [sections_eq hget, find?_eq_get?_of_only hnames rfl honly, hat]
    cases hsection : Fields.get? sid given with
    | none => exact .inl ⟨rfl, rfl⟩
    | some value =>
      have hfits : Fits route value := by
        obtain ⟨_, hfields, hfound⟩ := Datum.fits_cons_iff.mp hreaches.fits
        obtain rfl := Datum.table.inj hfields
        obtain ⟨_, hsections, hfound⟩ := Datum.fits_cons_iff.mp (hfound _ hget)
        obtain rfl := Datum.table.inj hsections
        exact hfound value hsection
      obtain ⟨name, names, rfl⟩ := List.exists_cons_of_ne_nil hroute
      obtain ⟨entries, rfl, -⟩ := Datum.fits_cons_iff.mp hfits
      have hentries := Datum.orderly_of_get? hgiven hsection
      refine .inr ⟨entries, rfl, Datum.filter_fieldLeaves hentries (fun _ ↦ hfits.isLeaf_of_at?) ?_⟩
      intro leaf hleaf hname
      obtain ⟨hfound, hisLeaf⟩ := (Datum.mem_routes_iff hentries leaf.1).mp hleaf
      have hmem : (componentsKey :: sid :: leaf.1, leaf.2) ∈ routes (.table fields) := by
        rw [Datum.mem_routes_iff hreaches.orderly, at?, hget, Option.bind_some, at?, hsection]
        exact ⟨hfound, hisLeaf⟩
      have hsame := hreaches.only _ hmem ⟨rfl, rfl, hname⟩
      exact (List.cons.inj (List.cons.inj hsame).2).2

/-- The option is set to the value at the end of the route. -/
theorem Reaches.setting?_eq (hreaches : Reaches sid route fields) (hroute : route ≠ []) :
    setting? sid (pathAlong "" route) (sections (.ok fields)) =
      (at? (componentsKey :: sid :: route) (.table fields)).map fun leaf ↦
        (pathAlong "" route, leaf) := by
  rcases hreaches.section_cases hroute with ⟨hnone, hat⟩ | ⟨entries, hfind, hleaves⟩
  · rw [setting?, hnone, hat]
    rfl
  · have hhead := congrArg List.head? hleaves
    rw [List.head?_filter] at hhead
    rw [setting?, hfind, within, Option.bind_some, Datum.leaves, find?, hhead]
    cases at? (componentsKey :: sid :: route) (.table fields) <;> rfl

theorem Reaches.onceFor (hreaches : Reaches sid route fields) :
    OnceFor sid (sections (.ok fields)) := by
  rw [onceFor_iff_names]
  intro first hfirst second hsecond hone htwo
  rw [hreaches.ids first hfirst hone, hreaches.ids second hsecond htwo]

theorem Reaches.nodup_ids (hreaches : Reaches sid route fields) :
    (Fields.names (sections (.ok fields))).Nodup := by
  cases hget : Fields.get? componentsKey fields with
  | none =>
    rw [sections, hget]
    exact List.nodup_nil
  | some value =>
    obtain ⟨given, rfl⟩ := hreaches.table hget
    rw [sections_eq hget]
    exact (Datum.orderly_table_iff.mp (Datum.orderly_of_get? hreaches.orderly hget)).1.nodup_names

/-- The section of the component is a table, and its values for the option are those found along the
route: one, or none. -/
theorem Reaches.length_le_one (hreaches : Reaches sid route fields) (hroute : route ≠ [])
    {given : String × Datum} (hgiven : given ∈ sections (.ok fields))
    (hname : Key.normal given.1 = Key.normal sid) : ∃ entries, given.2 = .table entries ∧
      ((fieldLeaves "" entries).filter fun leaf ↦
        Key.agree leaf.1 (pathAlong "" route)).length ≤ 1 := by
  have hfound := (find?_eq_some_iff_of_onceFor hreaches.nodup_ids hreaches.onceFor).mpr
    ⟨hgiven, hname⟩
  rcases hreaches.section_cases hroute with ⟨hnone, -⟩ | ⟨entries, hfind, hleaves⟩
  · cases hnone.symm.trans hfound
  · obtain rfl := Option.some.inj (hfind.symm.trans hfound)
    exact ⟨entries, rfl, hleaves ▸ Option.length_toList_le⟩

/-- Such settings address the option clearly. -/
theorem Reaches.clearSource (hreaches : Reaches sid route fields) (hroute : route ≠ []) :
    ClearSource sid (pathAlong "" route) fields := by
  refine ⟨hreaches.ordered, fun _ ↦ hreaches.table, hreaches.nodup_ids, fun given hgiven hname ↦ ?_⟩
  obtain ⟨entries, hvalue, hone⟩ := hreaches.length_le_one hroute hgiven hname
  refine ⟨entries, hvalue, fun first hfirst second hsecond hsame hother ↦ ?_⟩
  have hmem : ∀ leaf ∈ fieldLeaves "" entries, Key.normal leaf.1 = Key.normal (pathAlong "" route) →
      leaf ∈ (fieldLeaves "" entries).filter fun leaf ↦ Key.agree leaf.1 (pathAlong "" route) :=
    fun leaf hleaf hname ↦ List.mem_filter.mpr ⟨hleaf, Key.agree_iff.mpr hname⟩
  have hfirst' := hmem first hfirst hsame
  have hsecond' := hmem second hsecond hother
  obtain ⟨held, hheld⟩ := List.length_eq_one_iff.mp
    (Nat.le_antisymm hone (List.length_pos_of_mem hfirst'))
  rw [hheld, List.mem_singleton] at hfirst' hsecond'
  rw [hfirst', hsecond']

/-- Folding their sections never finds the option set twice. -/
theorem Reaches.fault_of_relax (hreaches : Reaches sid route fields) (hroute : route ≠ [])
    {known : List (String × Datum)} {fault : LayerFault}
    (hrelax : relax known (sections (.ok fields)) = .error fault) :
    ∃ name path, fault = .setTwice name path ∧
      (Key.normal name = Key.normal sid → Key.normal path ≠ Key.normal (pathAlong "" route)) := by
  rw [relax_eq] at hrelax
  rcases foldAll_cases (sections (.ok fields)) with ⟨folded, hfolded, -⟩ | ⟨given, hgiven, found,
    hfold, hfault⟩
  · simp [hfolded, Except.map] at hrelax
  · obtain rfl : found = fault := by simpa [hfault, Except.map] using hrelax
    have hcases := fold_cases given.1 given.2
    rw [hfold] at hcases
    cases hcases with
    | @twice entries path hvalue htwice =>
      refine ⟨given.1, path, rfl, fun hname hpath ↦ ?_⟩
      obtain ⟨others, hothers, hone⟩ := hreaches.length_le_one hroute hgiven hname
      obtain rfl := Datum.table.inj (hvalue.symm.trans hothers)
      have hcount := occurrences_le_of_normal hpath (fieldLeaves "" entries)
      omega

end Reaches

/-! ### All calls -/

section Calls

variable {sid : String} {route : List String} {calls : List Loader.Call}

/-- All calls together have the option in the way that each of them has it, with the last value
set. -/
theorem reaches_calls (hroute : route ≠ [])
    (hcalls : ∀ call ∈ calls, ∃ fields, call.layer = .ok fields ∧ Reaches sid route fields) :
    ∃ fields, calls.foldl (fun layer call ↦ Layer.merge layer call.layer) (.ok []) = .ok fields ∧
      Reaches sid route fields ∧ setting? sid (pathAlong "" route) (sections (.ok fields)) =
        (calls.filterMap fun call ↦
          setting? sid (pathAlong "" route) (sections call.layer)).getLast? := by
  induction calls using List.reverseRecOn with
  | nil => exact ⟨[], rfl, reaches_nil, rfl⟩
  | append_singleton calls call ih =>
    obtain ⟨earlier, hearlier, hreaches, hsetting⟩ := ih fun other hother ↦
      hcalls other (List.mem_append_left _ hother)
    obtain ⟨later, hlater, hlast⟩ := hcalls call (by simp)
    obtain ⟨hover, hat⟩ := hreaches.overlay hlast
    refine ⟨Datum.overlayFields earlier later, ?_, hover, ?_⟩
    · rw [List.foldl_append, hearlier]
      simp [Layer.merge, hlater]
    · rw [hover.setting?_eq hroute, hat, List.filterMap_append, List.getLast?_append, ← hsetting,
        hreaches.setting?_eq hroute]
      simp only [List.filterMap_cons, List.filterMap_nil, hlater, hlast.setting?_eq hroute]
      cases at? (componentsKey :: sid :: route) (.table later) <;> rfl

end Calls

end Layer

namespace Loader

open Datum (pathAlong)
open Layer (Reaches)
open Relaxed ComponentSection

variable {around : Surroundings} {loader : Loader} {calls : List Call} {sid : String}
  {route : List String}

theorem load_calls (around : Surroundings) (hstart : loader.overrides = .ok [])
    (calls : List Call) :
    ((loader.calls calls).load around).value =
      (loader.mergeFiles around).value.bind fun files ↦
        extract ((loader.beneath around files).relaxedMerge
          (calls.foldl (fun layer call ↦ layer.merge call.layer) (.ok []))) := by
  rw [calls_eq, hstart]
  rfl

/-- Settings with a table of sections make a configuration, unless what they say about logging or
binding cannot be read. -/
theorem extract_of_holds {layer : Layer} {merged : List (String × Datum)}
    (hholds : layer.Holds merged) {error : ConfigError} (hextract : extract layer = .error error) :
    error = .parse .malformed ∧ ∃ fields, layer = .ok fields ∧
      ((Datum.table fields).part? 0 "logging" {} (LoggingConfig.ofDatum? .partly) = none ∨
        (Datum.table fields).part? 1 "binding" {} (BindingConfig.ofDatum? .partly) = none) := by
  obtain ⟨fields, rfl, hheld⟩ := hholds
  have hmalformed : error = .parse .malformed := by
    rw [extract] at hextract
    split at hextract
    · cases hextract
    · exact (Except.error.inj hextract).symm
  refine ⟨hmalformed, fields, rfl, ?_⟩
  by_contra hparts
  obtain ⟨hlogging, hbinding⟩ := not_or.mp hparts
  obtain ⟨logging, hlogging⟩ := Option.ne_none_iff_exists'.mp hlogging
  obtain ⟨binding, hbinding⟩ := Option.ne_none_iff_exists'.mp hbinding
  have hread : extract (.ok fields) = .ok ⟨logging, binding, Datum.settledFields merged⟩ :=
    Layer.extract_eq_ok_iff.mpr ⟨hlogging, hbinding, Layer.part?_components ⟨fields, rfl, hheld⟩⟩
  cases hread.symm.trans hextract

/-- If settings that have an option in one way cannot be put over others, or not be read, it is not
because of the option. -/
theorem error_of_calls {beneath : Layer} {known fields : List (String × Datum)}
    (hholds : beneath.Holds known) (hknown : Clear sid (pathAlong "" route) known)
    (hreaches : Reaches sid route fields) (hroute : route ≠ []) {error : ConfigError}
    (herror : extract (beneath.relaxedMerge (.ok fields)) = .error error) :
    (∃ name path, error = .parse (.setTwice name path) ∧
      (Key.normal name = Key.normal sid → Key.normal path ≠ Key.normal (pathAlong "" route))) ∨
    error = .parse .malformed ∧ ∃ result, beneath.relaxedMerge (.ok fields) = .ok result ∧
      ((Datum.table result).part? 0 "logging" {} (LoggingConfig.ofDatum? .partly) = none ∨
        (Datum.table result).part? 1 "binding" {} (BindingConfig.ofDatum? .partly) = none) := by
  cases hmerge : beneath.relaxedMerge (.ok fields) with
  | ok result =>
    obtain ⟨merged, hmerged, -⟩ := Layer.relaxedMerge_option hholds hknown.ordered (fun _ ↦ hknown)
      (hreaches.clearSource hroute) hmerge
    rw [hmerge] at herror
    obtain ⟨hmalformed, _, hresult, hparts⟩ := extract_of_holds hmerged herror
    obtain rfl := Except.ok.inj hresult
    exact .inr ⟨hmalformed, result, rfl, hparts⟩
  | error fault =>
    left
    obtain rfl : .parse fault = error := by simpa [hmerge, extract] using herror
    cases hget : Fields.get? componentsKey fields with
    | none =>
      obtain ⟨_, hok, -⟩ := Layer.relaxedMerge_of_none hholds hreaches.ordered hget
      cases hmerge.symm.trans hok
    | some value =>
      obtain ⟨given, rfl⟩ := hreaches.table hget
      cases hrelax : relax known given with
      | ok relaxedGiven =>
        obtain ⟨_, hok, -⟩ := Layer.relaxedMerge_of_relax hholds hreaches.ordered hget hrelax
        cases hmerge.symm.trans hok
      | error found =>
        have hfault := Layer.relaxedMerge_of_fault hholds hget hrelax
        obtain rfl := Except.error.inj (hmerge.symm.trans hfault)
        rw [← Layer.sections_eq hget] at hrelax
        obtain ⟨name, path, rfl, hother⟩ := hreaches.fault_of_relax hroute hrelax
        exact ⟨name, path, rfl, hother⟩

/-- Settings that set an option in one way, over others: the component has one section, with one key
for the option and its value. -/
theorem option_of_calls {beneath : Layer} {known fields : List (String × Datum)}
    (hholds : beneath.Holds known) (hknown : Clear sid (pathAlong "" route) known)
    (hreaches : Reaches sid route fields) (hroute : route ≠ []) {last : String × Datum}
    (hlast : setting? sid (pathAlong "" route) (Layer.sections (.ok fields)) = some last)
    {config : Config} (hconfig : extract (beneath.relaxedMerge (.ok fields)) = .ok config)
    {components : List ComponentSection} (hsections : config.sections = .ok components) :
    ∃ spelling entries path,
      find? sid config.components = some (spelling, .table entries) ∧
      (entries.filter fun entry ↦ Key.agree entry.1 (pathAlong "" route)) =
        [(path, last.2.settled)] ∧
      ∃ component ∈ components, ofDatum spelling (.table entries) = .ok component ∧
        Key.normal component.id = Key.normal sid ∧
        (∀ other ∈ components, Key.normal other.id = Key.normal sid → other = component) ∧
        (∀ (binder : Binder) (schema : Schema) (resolver : Resolver) (owner option : String)
          (keys : List String), Key.normal option = Key.normal (pathAlong "" route) →
          (binder.bind schema component.rawValues resolver).value ≠
            .error (.conflictingKeys owner option keys)) ∧
        (path ≠ switchKey → isPresent last.2.settled = true → ∃ text,
          leafText? last.2.settled = some text ∧ ∀ spec : OptionSpec,
            Key.normal spec.name = Key.normal (pathAlong "" route) →
              Binder.entriesOf component.rawValues spec = [(path, .text text)]) := by
  cases hmerge : beneath.relaxedMerge (.ok fields) with
  | error fault => simp [hmerge, extract] at hconfig
  | ok result =>
    obtain ⟨merged, hmerged, -, hoption⟩ := Layer.relaxedMerge_option hholds hknown.ordered
      (fun _ ↦ hknown) (hreaches.clearSource hroute) hmerge
    rw [hmerge] at hconfig
    obtain ⟨path, hpath⟩ : ∃ path, latest (setting? sid (pathAlong "" route) known) (some last) =
        some (path, last.2) := ⟨_, latest_some _ last⟩
    rw [hlast, hpath] at hoption
    obtain ⟨spelling, entries, hfind, htable, hfield, component, hmem, hread, hid, honly⟩ :=
      Layer.exists_component hmerged hconfig hsections fun honce ↦ (hoption honce).2
    refine ⟨spelling, entries, path, hfind, ?_, component, hmem, hread, hid, honly, ?_, ?_⟩
    · rw [filter_eq_find?_of_onceFor htable.ordered.nodup_names htable.once, hfield]
      rfl
    · intro binder schema resolver owner option keys hname
      exact bind_ne_conflicting_of_clear htable hread binder schema resolver hname owner keys
    · intro hkey hpresent
      have hentries : ∀ spec : OptionSpec, Key.normal spec.name = Key.normal (pathAlong "" route) →
          ∃ text, leafText? last.2.settled = some text ∧
            Binder.entriesOf component.rawValues spec = [(path, .text text)] := by
        intro spec hname
        have hspec : ClearTable spec.name entries :=
          ⟨htable.ordered, htable.leaf, htable.once.congr hname.symm⟩
        exact entriesOf_of_clear hspec hread ((find?_congr hname).trans hfield) hkey hpresent
      obtain ⟨text, htext, -⟩ := hentries { name := pathAlong "" route, kind := .string } rfl
      refine ⟨text, htext, fun spec hname ↦ ?_⟩
      obtain ⟨same, hsame, honly⟩ := hentries spec hname
      obtain rfl := Option.some.inj (htext.symm.trans hsame)
      exact honly

/-- Calls that have an option of a component in one way, over sources in which the option stands in
one place at most. If loading fails it is not because the option is set twice: the files are at
fault, or another option is set twice, or what is said about logging or binding cannot be read. If
it succeeds the component has one section, in which one key leads to the option, and its value is
that of the last call that sets it. So no binding finds the option in conflict, and the value is
what it is bound from. -/
theorem last_call_wins (hstart : loader.overrides = .ok []) (hroute : route ≠ [])
    (hcalls : ∀ call ∈ calls, ∃ fields, call.layer = .ok fields ∧ Reaches sid route fields)
    (hbeneath : ∀ files, (loader.mergeFiles around).value = .ok files → ∃ known,
      (loader.beneath around files).Holds known ∧ Clear sid (pathAlong "" route) known) :
    (∀ error, ((loader.calls calls).load around).value = .error error →
      (loader.mergeFiles around).value = .error error ∨
      (∃ name path, error = .parse (.setTwice name path) ∧
        (Key.normal name = Key.normal sid →
          Key.normal path ≠ Key.normal (pathAlong "" route))) ∨
      error = .parse .malformed ∧ ∃ files fields, (loader.mergeFiles around).value = .ok files ∧
        (loader.calls calls).mergeRest around files = .ok fields ∧
          ((Datum.table fields).part? 0 "logging" {} (LoggingConfig.ofDatum? .partly) = none ∨
            (Datum.table fields).part? 1 "binding" {} (BindingConfig.ofDatum? .partly) = none)) ∧
    ∀ last, (calls.filterMap fun call ↦
        setting? sid (pathAlong "" route) call.layer.sections).getLast? = some last →
      ∀ config components, ((loader.calls calls).load around).value = .ok config →
        config.sections = .ok components →
        ∃ spelling entries path,
          find? sid config.components = some (spelling, .table entries) ∧
          (entries.filter fun entry ↦ Key.agree entry.1 (pathAlong "" route)) =
            [(path, last.2.settled)] ∧
          ∃ component ∈ components, ofDatum spelling (.table entries) = .ok component ∧
            Key.normal component.id = Key.normal sid ∧
            (∀ other ∈ components, Key.normal other.id = Key.normal sid → other = component) ∧
            (∀ (binder : Binder) (schema : Schema) (resolver : Resolver) (owner option : String)
              (keys : List String), Key.normal option = Key.normal (pathAlong "" route) →
              (binder.bind schema component.rawValues resolver).value ≠
                .error (.conflictingKeys owner option keys)) ∧
            (path ≠ switchKey → isPresent last.2.settled = true → ∃ text,
              leafText? last.2.settled = some text ∧ ∀ spec : OptionSpec,
                Key.normal spec.name = Key.normal (pathAlong "" route) →
                  Binder.entriesOf component.rawValues spec = [(path, .text text)]) := by
  obtain ⟨fields, hfold, hreaches, hsetting⟩ := Layer.reaches_calls hroute hcalls
  have hload := load_calls around hstart calls
  rw [hfold] at hload
  constructor
  · intro error herror
    rw [hload] at herror
    cases hfiles : (loader.mergeFiles around).value with
    | error fault => exact .inl (by simpa [hfiles, Except.bind] using herror)
    | ok files =>
      obtain ⟨known, hholds, hknown⟩ := hbeneath files hfiles
      rw [hfiles] at herror
      refine .inr ((error_of_calls hholds hknown hreaches hroute herror).imp_right ?_)
      rintro ⟨hmalformed, result, hresult, hparts⟩
      refine ⟨hmalformed, files, result, rfl, ?_, hparts⟩
      rw [mergeRest_eq, calls_eq, hstart, hfold]
      exact hresult
  · intro last hlast config components hconfig hsections
    rw [hload] at hconfig
    cases hfiles : (loader.mergeFiles around).value with
    | error fault => simp [hfiles, Except.bind] at hconfig
    | ok files =>
      obtain ⟨known, hholds, hknown⟩ := hbeneath files hfiles
      rw [hfiles] at hconfig
      exact option_of_calls hholds hknown hreaches hroute (hsetting.trans hlast) hconfig hsections

/-- A file says one thing about the host of the proxy, in a spelling of its own, and three calls
reach it as a nested table. The last of them is what the component is bound from. -/
theorem last_call_wins_orders :
    let text := "[components.aws-orders]\nproxyHost = \"proxy.local\"\n"
    let around : Surroundings := { files := .ofList [("conflux.toml", text)] }
    let loader : Loader := {}
    let calls : List Call := [.set "components.aws-orders.proxy.host" (.text "a"),
      .merge { components := [("aws-orders", .table [("proxy", .table
        [("host", .text "b"), ("port", .int 80)])])] },
      .set "components.aws-orders.proxy.host" (.text "c")]
    let config : Config := { components := [("aws-orders", .table
      [("proxy.port", .int 80), ("proxyHost", .text "c")])] }
    ((loader.calls calls).load around).value = .ok config ∧
      ∃ components, config.sections = .ok components ∧ ∃ component ∈ components,
        Binder.entriesOf component.rawValues { name := "proxy_host", kind := .string } =
          [("proxyHost", .text "c")] := by
  intro text around loader calls config
  let route := ["proxy", "host"]
  have hstart : loader.overrides = .ok [] := rfl
  have hcalls : ∀ call ∈ calls, ∃ fields, call.layer = .ok fields ∧
      Reaches "aws-orders" route fields := by
    simp only [calls, List.forall_mem_cons]
    refine ⟨⟨_, rfl, by decide +kernel⟩, ⟨_, rfl, by decide +kernel⟩, ⟨_, rfl, by decide +kernel⟩,
      by simp⟩
  let known : List (String × Datum) := [("aws-orders", .table [("proxyHost", .text "proxy.local")])]
  have hfiles : (loader.mergeFiles around).value =
      .ok (.ok (Fields.put componentsKey (.table known) (Config.fields {}))) := by decide +kernel
  have hbeneath : ∀ files, (loader.mergeFiles around).value = .ok files → ∃ known,
      (loader.beneath around files).Holds known ∧
        Clear "aws-orders" (pathAlong "" route) known := by
    intro files hmerged
    obtain rfl := Except.ok.inj (hfiles.symm.trans hmerged)
    have hordered : Fields.Ordered (Fields.put componentsKey (.table known) (Config.fields {})) :=
      Fields.ordered_put (Fields.ordered_ofList _)
    refine ⟨known, ⟨_, by rfl, ?_, by decide +kernel⟩, ?_⟩
    · exact Datum.ordered_overlayFields (Datum.ordered_overlayFields hordered)
    have htable : ClearTable (pathAlong "" route) [("proxyHost", .text "proxy.local")] := by
      refine ⟨List.pairwise_singleton _ _, ?_, by decide +kernel⟩
      simp [Datum.IsLeaf]
    refine ⟨List.pairwise_singleton _ _, by decide +kernel, fun given hgiven _ ↦ ?_⟩
    obtain rfl := List.mem_singleton.mp hgiven
    exact ⟨_, rfl, htable⟩
  have hload : ((loader.calls calls).load around).value = .ok config := by decide +kernel
  let component : ComponentSection :=
    ⟨"aws-orders", true, [("proxy.port", "80"), ("proxyHost", "c")]⟩
  have hsections : config.sections = .ok [component] := by decide +kernel
  have hlast : (calls.filterMap fun call ↦ setting? "aws-orders" (pathAlong "" route)
      call.layer.sections).getLast? = some ("proxy.host", .text "c") := by decide +kernel
  obtain ⟨spelling, entries, path, hfind, honly, found, hmem, -, -, -, -, hbound⟩ :=
    (last_call_wins hstart (by decide) hcalls hbeneath).2 _ hlast config [component] hload hsections
  have hheld : find? "aws-orders" config.components = some ("aws-orders", .table
      [("proxy.port", .int 80), ("proxyHost", .text "c")]) := by decide +kernel
  obtain rfl := Datum.table.inj (Prod.mk.inj (Option.some.inj (hheld.symm.trans hfind))).2
  have hkey : ([("proxy.port", .int 80), ("proxyHost", .text "c")] :
      List (String × Datum)).filter (fun entry ↦ Key.agree entry.1 (pathAlong "" route)) =
        [("proxyHost", .text "c")] := by decide +kernel
  have hfound : found = component := List.mem_singleton.mp hmem
  obtain rfl : "proxyHost" = path := (Prod.mk.inj (List.cons.inj (hkey.symm.trans honly)).1).1
  have hswitch : "proxyHost" ≠ switchKey := by decide +kernel
  have hpresent : isPresent (Datum.text "c").settled = true := by decide +kernel
  have hname : Key.normal "proxy_host" = Key.normal (pathAlong "" route) := by decide +kernel
  obtain ⟨value, hvalue, hentries⟩ := hbound hswitch hpresent
  have hsame : leafText? (Datum.text "c").settled = some "c" := by decide +kernel
  obtain rfl := Option.some.inj (hsame.symm.trans hvalue)
  exact ⟨hload, [component], hsections, component, List.mem_singleton_self _,
    hfound ▸ hentries { name := "proxy_host", kind := .string } hname⟩

/-- Two calls reach one option in two ways. With two spellings both values are kept, and binding the
section finds them in conflict. With a nested table and a dotted key the option is reported as set
twice and nothing is loaded. -/
theorem calls_in_conflict :
    let loader : Loader := {}
    let spelled : List Call := [.set "components.proxied.proxyHost" (.text "proxy.local"),
      .set "components.proxied.proxy-host" (.text "proxy.prod")]
    let dotted : List Call := [.set "components.proxied.proxy.host" (.text "proxy.local"),
      .merge { components := [("proxied", .table [("proxy.host", .text "proxy.prod")])] }]
    let config : Config := { components := [("proxied", .table
      [("proxy-host", .text "proxy.prod"), ("proxyHost", .text "proxy.local")])] }
    let component : ComponentSection :=
      ⟨"proxied", true, [("proxy-host", "proxy.prod"), ("proxyHost", "proxy.local")]⟩
    let binder : Binder := {}
    ((loader.calls spelled).load {}).value = .ok config ∧ config.sections = .ok [component] ∧
      (binder.bind proxied component.rawValues .none).value =
        .error (.conflictingKeys "proxied" "proxyHost" ["proxy-host", "proxyHost"]) ∧
      ((loader.calls dotted).load {}).value =
        .error (.parse (.setTwice "proxied" "proxy.host")) := by
  intro loader spelled dotted config component binder
  have hspelled : ((loader.calls spelled).load {}).value = .ok config := by decide +kernel
  have hsections : config.sections = .ok [component] := by decide +kernel
  have hconflict : (binder.bind proxied component.rawValues .none).value =
      .error (.conflictingKeys "proxied" "proxyHost" ["proxy-host", "proxyHost"]) := by
    let spec : OptionSpec := { name := "proxyHost", kind := .string }
    have hentries : Binder.entriesOf component.rawValues spec =
        [("proxy-host", .text "proxy.prod"), ("proxyHost", .text "proxy.local")] := by
      decide +kernel
    have hsorted : ["proxy-host", "proxyHost"].Pairwise (· ≤ ·) := by decide +kernel
    have hresolved : binder.resolved proxied.id .none component.rawValues spec =
        .error (.conflictingKeys "proxied" "proxyHost" ["proxy-host", "proxyHost"]) := by
      rw [Binder.resolved, hentries, Binder.eq_mergeSort (.refl _) hsorted]
      rfl
    rw [Binder.bind_value]
    exact congrArg (Except.bind · _) (Traversal.mapM_cons_of_error hresolved _)
  have hdotted : ((loader.calls dotted).load {}).value =
      .error (.parse (.setTwice "proxied" "proxy.host")) := by decide +kernel
  exact ⟨hspelled, hsections, hconflict, hdotted⟩

end Loader

end Connectors
