import Connectors.Proofs.Binding.Single
import Connectors.Proofs.Sections.Leaves
import Connectors.Proofs.Sections.OneName
import Connectors.Sections.Basic
import Mathlib.Data.List.Induction

/-!
# What a section gives to the binder

`Datum.dotted` lists the values below a key that are no tables, each under its dotted key. Reading a
section turns exactly these into settings, apart from the switch and from what is null
(`flattenFields_eq_ok_iff`, `read_eq_ok_iff`), and of several under one dotted key it keeps the last
(`Fields.get?_putAll`).

So two values whose dotted keys are different spellings of one option are both seen by the binder,
and refused. Where all the values for an option have one dotted key the option is bound from the
last of them, and the others are gone (`settings_of_section`): a table may hold an option once in
nested tables and once written with points, and one of the two is dropped without a word
(`setting_overwritten`).
-/

set_option autoImplicit false
set_option relaxedAutoImplicit false

namespace Connectors

/-- Of several values under one name the last stays, in place of the one that was there. -/
theorem Fields.get?_putAll {α : Type} (name : String) (fields : Fields α)
    (pairs : List (String × α)) : get? name (putAll fields pairs) =
      ((pairs.filter (·.1 = name)).getLast?.map (·.2)).or (get? name fields) := by
  induction pairs using List.reverseRecOn generalizing fields with
  | nil => rfl
  | append_singleton pairs pair ih =>
    have hput : putAll fields (pairs ++ [pair]) = put pair.1 pair.2 (putAll fields pairs) := by
      simp [putAll]
    rw [hput, List.filter_append]
    by_cases hname : pair.1 = name
    · rw [← hname, get?_put_self]
      simp
    · rw [get?_put_of_ne _ _ (Ne.symm hname), ih]
      simp [hname]

namespace Datum

/-! ### Values by their dotted keys -/

mutual

/-- The values below a key that are no tables, each under its dotted key. -/
def dotted (key : String) : Datum → List (String × Datum)
  | .table fields => dottedFields (key ++ ".") fields
  | value => [(key, value)]

/-- The values in fields whose dotted keys all begin with the same path. -/
def dottedFields (path : String) : List (String × Datum) → List (String × Datum)
  | [] => []
  | (key, value) :: rest => dotted (path ++ key) value ++ dottedFields path rest

end

theorem dotted_of_isLeaf {value : Datum} (hleaf : value.IsLeaf) (key : String) :
    dotted key value = [(key, value)] := by
  cases value with
  | table fields => exact absurd rfl (hleaf fields)
  | _ => rfl

/-- Fields without tables stand under their dotted keys. -/
theorem dottedFields_of_isLeaf {fields : List (String × Datum)}
    (hleaf : ∀ field ∈ fields, field.2.IsLeaf) : dottedFields "" fields = fields := by
  induction fields with
  | nil => rfl
  | cons field rest ih =>
    obtain ⟨hfirst, hrest⟩ := List.forall_mem_cons.mp hleaf
    rw [dottedFields, dotted_of_isLeaf hfirst, ih hrest, String.empty_append]
    rfl

end Datum

namespace ComponentSection

open Datum (dotted dottedFields)

/-- The text that a value gives to an option, if it is no table. -/
def leafText? : Datum → Option String
  | .list items => (itemTexts? items).map (Text.join ",")
  | value => scalarText? value

/-- Whether a value is there at all. -/
def isPresent (value : Datum) : Bool :=
  value ≠ .null

/-- A value under its dotted key and the setting made of it. -/
def Gives (leaf : String × Datum) (setting : String × String) : Prop :=
  setting.1 = leaf.1 ∧ leafText? leaf.2 = some setting.2

/-- The values of a section that become settings, in order: those of no table that are there,
without the switch. -/
def settingLeaves (fields : List (String × Datum)) : List (String × Datum) :=
  (dottedFields "" (fields.filter (·.1 ≠ switchKey))).filter (isPresent ·.2)

/-! ### Flattening -/

theorem flatten_of_isLeaf {value : Datum} (hleaf : value.IsLeaf) (hpresent : isPresent value = true)
    (key : String) : flatten key value =
      match leafText? value with
      | some text => .ok [(key, text)]
      | none => .error (.nestedList key) := by
  cases value with
  | table fields => exact absurd rfl (hleaf fields)
  | null => simp [isPresent] at hpresent
  | list items =>
    simp only [flatten, leafText?]
    cases itemTexts? items <;> rfl
  | _ => rfl

theorem flatten_of_not_isPresent {value : Datum} (hpresent : ¬ isPresent value = true)
    (key : String) : flatten key value = .ok [] := by
  obtain rfl : value = .null := by simpa [isPresent] using hpresent
  rfl

mutual

/-- The settings of a value are made of its leaves, in order. -/
theorem gives_of_flatten (key : String) (value : Datum) {settings : List (String × String)}
    (hflatten : flatten key value = .ok settings) :
    List.Forall₂ Gives ((dotted key value).filter (isPresent ·.2)) settings := by
  by_cases htable : ∃ fields, value = .table fields
  · obtain ⟨fields, rfl⟩ := htable
    rw [flatten] at hflatten
    rw [dotted]
    exact gives_of_flattenFields (key ++ ".") fields hflatten
  · have hleaf : value.IsLeaf := not_exists.mp htable
    rw [Datum.dotted_of_isLeaf hleaf]
    by_cases hpresent : isPresent value = true
    · rw [flatten_of_isLeaf hleaf hpresent] at hflatten
      split at hflatten
      · rename_i text htext
        obtain rfl := Except.ok.inj hflatten
        simpa [hpresent, Gives] using htext
      · cases hflatten
    · rw [flatten_of_not_isPresent hpresent] at hflatten
      obtain rfl := Except.ok.inj hflatten
      simp [hpresent]

/-- The settings of fields are made of their leaves, in order. -/
theorem gives_of_flattenFields (path : String) (fields : List (String × Datum))
    {settings : List (String × String)} (hflatten : flattenFields path fields = .ok settings) :
    List.Forall₂ Gives ((dottedFields path fields).filter (isPresent ·.2)) settings := by
  match fields with
  | [] =>
    obtain rfl : [] = settings := by simpa [flattenFields] using hflatten
    simp [dottedFields]
  | (key, value) :: rest =>
    rw [flattenFields] at hflatten
    split at hflatten
    · cases hflatten
    · rename_i first hfirst
      cases hrest : flattenFields path rest with
      | error fault => simp [hrest, Except.map] at hflatten
      | ok others =>
        obtain rfl : first ++ others = settings := by simpa [hrest, Except.map] using hflatten
        rw [dottedFields, List.filter_append]
        exact List.rel_append (gives_of_flatten (path ++ key) value hfirst)
          (gives_of_flattenFields path rest hrest)

end

mutual

/-- A value can be flattened when each of its leaves has a text. -/
theorem exists_flatten (key : String) (value : Datum)
    (htexts : ∀ leaf ∈ dotted key value, isPresent leaf.2 = true → (leafText? leaf.2).isSome) :
    ∃ settings, flatten key value = .ok settings := by
  by_cases htable : ∃ fields, value = .table fields
  · obtain ⟨fields, rfl⟩ := htable
    rw [dotted] at htexts
    rw [flatten]
    exact exists_flattenFields (key ++ ".") fields htexts
  · have hleaf : value.IsLeaf := not_exists.mp htable
    rw [Datum.dotted_of_isLeaf hleaf, List.forall_mem_singleton] at htexts
    by_cases hpresent : isPresent value = true
    · obtain ⟨text, htext⟩ := Option.isSome_iff_exists.mp (htexts hpresent)
      exact ⟨[(key, text)], by rw [flatten_of_isLeaf hleaf hpresent, htext]⟩
    · exact ⟨[], flatten_of_not_isPresent hpresent key⟩

/-- Fields can be flattened when each of their leaves has a text. -/
theorem exists_flattenFields (path : String) (fields : List (String × Datum))
    (htexts : ∀ leaf ∈ dottedFields path fields, isPresent leaf.2 = true →
      (leafText? leaf.2).isSome) : ∃ settings, flattenFields path fields = .ok settings := by
  match fields with
  | [] => exact ⟨[], rfl⟩
  | (key, value) :: rest =>
    rw [dottedFields] at htexts
    obtain ⟨hfirst, hrest⟩ := List.forall_mem_append.mp htexts
    obtain ⟨first, hfirst⟩ := exists_flatten (path ++ key) value hfirst
    obtain ⟨others, hothers⟩ := exists_flattenFields path rest hrest
    exact ⟨first ++ others, by rw [flattenFields, hfirst, hothers]; rfl⟩

end

/-! ### Reading -/

/-- The position of the switch after fields that may set it. -/
def position (enabled : Bool) : List (String × Datum) → Except SectionFault Bool
  | [] => .ok enabled
  | (key, value) :: rest =>
    if key = switchKey then (switch value).bind fun turned ↦ position turned rest
    else position enabled rest

theorem filter_switch_cons (key : String) (value : Datum) (rest : List (String × Datum)) :
    ((key, value) :: rest).filter (·.1 ≠ switchKey) =
      if key = switchKey then rest.filter (·.1 ≠ switchKey)
      else (key, value) :: rest.filter (·.1 ≠ switchKey) := by
  by_cases hkey : key = switchKey <;> simp [hkey]

/-- A section can be read exactly when its switch has a position and the other fields can be
flattened. The settings are those of the other fields. -/
theorem read_eq_ok_iff {enabled on : Bool} {values result : Fields String}
    {fields : List (String × Datum)} : read enabled values fields = .ok (on, result) ↔
      position enabled fields = .ok on ∧ ∃ settings,
        flattenFields "" (fields.filter (·.1 ≠ switchKey)) = .ok settings ∧
          result = Fields.putAll values settings := by
  induction fields generalizing enabled values with
  | nil => simp [read, position, flattenFields, Fields.putAll, eq_comm]
  | cons field rest ih =>
    obtain ⟨key, value⟩ := field
    rw [read, position, filter_switch_cons]
    split_ifs with hkey
    · cases switch value with
      | error fault => simp [Except.bind]
      | ok turned => exact ih
    · rw [flattenFields, String.empty_append]
      cases hfirst : flatten key value with
      | error fault => simp
      | ok first =>
        simp only [ih]
        refine and_congr_right fun _ ↦ ?_
        cases flattenFields "" (rest.filter (·.1 ≠ switchKey)) with
        | error fault => simp [Except.map]
        | ok others => simp [Except.map, Fields.putAll]

/-- What a section that is read has for settings. -/
theorem values_of_ofDatum {id : String} {fields : List (String × Datum)}
    {component : ComponentSection} (hread : ofDatum id (.table fields) = .ok component) :
    ∃ settings, List.Forall₂ Gives (settingLeaves fields) settings ∧
      component.values = Fields.ofList settings := by
  rw [ofDatum] at hread
  split at hread
  · rename_i enabled values hvalues
    obtain rfl := Except.ok.inj hread
    obtain ⟨-, settings, hflatten, rfl⟩ := read_eq_ok_iff.mp hvalues
    exact ⟨settings, gives_of_flattenFields "" _ hflatten, rfl⟩
  · cases hread

/-! ### Binding -/

/-- The settings made of values with some dotted keys are those with these keys. -/
theorem gives_filter {leaves : List (String × Datum)} {settings : List (String × String)}
    (hgives : List.Forall₂ Gives leaves settings) (keep : String → Bool) :
    List.Forall₂ Gives (leaves.filter (keep ·.1)) (settings.filter (keep ·.1)) := by
  induction hgives with
  | nil => exact .nil
  | @cons leaf setting _ _ hfirst _ ih =>
    simp only [List.filter_cons, hfirst.1]
    split_ifs
    · exact .cons hfirst ih
    · exact ih

theorem gives_getLast {leaves : List (String × Datum)} {settings : List (String × String)}
    {last : String × Datum} (hgives : List.Forall₂ Gives (leaves ++ [last]) settings) :
    ∃ text, leafText? last.2 = some text ∧ settings.getLast? = some (last.1, text) := by
  have hreverse := List.forall₂_reverse_iff.mpr hgives
  rw [List.reverse_append, List.reverse_singleton, List.singleton_append,
    List.forall₂_cons_left_iff] at hreverse
  obtain ⟨⟨key, text⟩, others, ⟨hkey, htext⟩, -, hsettings⟩ := hreverse
  obtain rfl : key = last.1 := hkey
  exact ⟨text, htext, by rw [List.getLast?_eq_head?_reverse, hsettings, List.head?_cons]⟩

theorem names_of_gives {leaves : List (String × Datum)} {settings : List (String × String)}
    (hgives : List.Forall₂ Gives leaves settings) : settings.map (·.1) = leaves.map (·.1) := by
  induction hgives with
  | nil => rfl
  | cons hfirst _ ih => rw [List.map_cons, List.map_cons, hfirst.1, ih]

/-- A setting that leads to an option is an entry for it. -/
theorem mem_entriesOf_rawValues {component : ComponentSection} {spec : OptionSpec}
    {key text : String} (hsetting : (key, text) ∈ component.values)
    (hagree : Key.agree key spec.name = true) :
    (key, .text text) ∈ Binder.entriesOf component.rawValues spec :=
  List.mem_filter.mpr ⟨List.mem_map.mpr ⟨(key, text), hsetting, rfl⟩, hagree⟩

/-- The entries for an option whose keys have one spelling in the settings. -/
theorem entriesOf_rawValues {component : ComponentSection} {spec : OptionSpec} {key text : String}
    (hordered : Fields.Ordered component.values)
    (honly : Spelling.Only spec.name key component.values)
    (hkey : Key.normal key = Key.normal spec.name)
    (hget : Fields.get? key component.values = some text) :
    Binder.entriesOf component.rawValues spec = [(key, .text text)] := by
  have hfilter := Spelling.filter_eq_get? hordered.nodup_names hkey honly
  rw [Binder.entriesOf, rawValues, List.filter_map]
  change (component.values.filter fun setting ↦ Key.agree setting.1 spec.name).map _ = _
  rw [hfilter, hget]
  rfl

/-- Two values of a section with different dotted keys for one option are in conflict. -/
theorem conflict_of_two {id : String} {fields : List (String × Datum)}
    {component : ComponentSection} (hread : ofDatum id (.table fields) = .ok component)
    {spec : OptionSpec} {first second : String × Datum} (hfirst : first ∈ settingLeaves fields)
    (hsecond : second ∈ settingLeaves fields) (hone : Key.agree first.1 spec.name = true)
    (htwo : Key.agree second.1 spec.name = true) (hne : first.1 ≠ second.1) :
    ∃ entry ∈ Binder.entriesOf component.rawValues spec,
      ∃ other ∈ Binder.entriesOf component.rawValues spec,
        entry.1 = first.1 ∧ other.1 = second.1 ∧ entry ≠ other := by
  obtain ⟨settings, hgives, hvalues⟩ := values_of_ofDatum hread
  have hmem : ∀ leaf ∈ settingLeaves fields, leaf.1 ∈ Fields.names component.values := by
    intro leaf hleaf
    rw [hvalues, Fields.ofList, Fields.mem_names_putAll, names_of_gives hgives]
    exact .inr (List.mem_map_of_mem hleaf)
  obtain ⟨text, htext⟩ := Fields.mem_names_iff.mp (hmem first hfirst)
  obtain ⟨text', htext'⟩ := Fields.mem_names_iff.mp (hmem second hsecond)
  refine ⟨_, mem_entriesOf_rawValues htext hone,
    _, mem_entriesOf_rawValues htext' htwo, rfl, rfl, ?_⟩
  intro heq
  exact hne (Prod.mk.inj heq).1

/-- Where all the values of a section for an option have one dotted key, the last of them is the
entry for the option. -/
theorem entriesOf_of_last {id : String} {fields : List (String × Datum)}
    {component : ComponentSection} (hread : ofDatum id (.table fields) = .ok component)
    {spec : OptionSpec} {earlier : List (String × Datum)} {last : String × Datum}
    (hleaves : (settingLeaves fields).filter (fun leaf ↦ Key.agree leaf.1 spec.name) =
      earlier ++ [last]) (hsame : ∀ leaf ∈ earlier, leaf.1 = last.1) :
    ∃ text, leafText? last.2 = some text ∧
      Binder.entriesOf component.rawValues spec = [(last.1, .text text)] := by
  obtain ⟨settings, hgives, hvalues⟩ := values_of_ofDatum hread
  have hagree := gives_filter hgives fun key ↦ Key.agree key spec.name
  rw [hleaves] at hagree
  obtain ⟨text, htext, hlast⟩ := gives_getLast hagree
  have hkeys : ∀ setting ∈ settings.filter fun setting ↦ Key.agree setting.1 spec.name,
      setting.1 = last.1 := by
    intro setting hsetting
    have hmem : setting.1 ∈ (earlier ++ [last]).map (·.1) :=
      names_of_gives hagree ▸ List.mem_map_of_mem hsetting
    obtain ⟨leaf, hleaf, hkey⟩ := List.mem_map.mp hmem
    rw [← hkey]
    rcases List.mem_append.mp hleaf with hleaf | hleaf
    · exact hsame leaf hleaf
    · rw [List.mem_singleton.mp hleaf]
  have hkey : Key.agree last.1 spec.name = true :=
    (List.mem_filter.mp (List.mem_of_getLast? hlast)).2
  have hfilter : (settings.filter fun setting ↦ setting.1 = last.1) =
      settings.filter fun setting ↦ Key.agree setting.1 spec.name := by
    refine List.filter_congr fun setting hsetting ↦ ?_
    by_cases hname : setting.1 = last.1
    · simp [hname, hkey]
    · have hapart : ¬ Key.agree setting.1 spec.name = true := fun hagree ↦
        hname (hkeys setting (List.mem_filter.mpr ⟨hsetting, hagree⟩))
      simp [hname, hapart]
  have hget : Fields.get? last.1 component.values = some text := by
    rw [hvalues, Fields.ofList, Fields.get?_putAll, hfilter, hlast]
    rfl
  have hordered : Fields.Ordered component.values := hvalues ▸ Fields.ordered_ofList settings
  refine ⟨text, htext, entriesOf_rawValues hordered ?_ (Key.agree_iff.mp hkey) hget⟩
  intro setting hsetting hname
  have hmem : setting.1 ∈ Fields.names (Fields.ofList settings) :=
    hvalues ▸ List.mem_map_of_mem hsetting
  rcases Fields.mem_names_putAll.mp hmem with hnone | hgiven
  · simp [Fields.names] at hnone
  · obtain ⟨given, hgiven, hsame⟩ := List.mem_map.mp hgiven
    rw [← hsame]
    refine hkeys given (List.mem_filter.mpr ⟨hgiven, ?_⟩)
    rw [Key.agree_iff, hsame, hname]

/-- A value of a section is the one that an option is bound from: all values for the option have one
dotted key, and it is the last of them. -/
def Decides (fields : List (String × Datum)) (spec : OptionSpec) (leaf : String × Datum) : Prop :=
  ∃ earlier, (settingLeaves fields).filter (fun other ↦ Key.agree other.1 spec.name) =
    earlier ++ [leaf] ∧ ∀ other ∈ earlier, other.1 = leaf.1

/-- An option is resolved by the text of the value that decides it. -/
theorem Decides.exists_text {id : String} {fields : List (String × Datum)}
    {component : ComponentSection} {spec : OptionSpec} {leaf : String × Datum}
    (hdecides : Decides fields spec leaf) (hread : ofDatum id (.table fields) = .ok component)
    (binder : Binder) (schema : Schema) (resolver : Resolver) :
    ∃ text, leafText? leaf.2 = some text ∧
      binder.resolved schema.id resolver component.rawValues spec =
        (Binder.coerce schema.id resolver spec (.text text)).map some := by
  obtain ⟨earlier, hleaves, hsame⟩ := hdecides
  obtain ⟨text, htext, honly⟩ := entriesOf_of_last hread hleaves hsame
  exact ⟨text, htext, Binder.resolved_of_only honly⟩

/-- Where a section is bound, a value for an option decides, or a later one under its dotted key. -/
theorem exists_decides {id : String} {fields : List (String × Datum)} {component : ComponentSection}
    (hread : ofDatum id (.table fields) = .ok component) {binder : Binder} {schema : Schema}
    {resolver : Resolver} {bound : Bound}
    (hbind : (binder.bind schema component.rawValues resolver).value = .ok bound)
    {spec : OptionSpec} (hspec : spec ∈ schema.options) {leaf : String × Datum}
    (hleaf : leaf ∈ settingLeaves fields) (hagree : Key.agree leaf.1 spec.name = true) :
    ∃ last, Decides fields spec last ∧ last.1 = leaf.1 := by
  have hkeys : ∀ other ∈ (settingLeaves fields).filter fun other ↦ Key.agree other.1 spec.name,
      other.1 = leaf.1 := by
    intro other hmem
    obtain ⟨hother, hsame⟩ := List.mem_filter.mp hmem
    by_contra hne
    obtain ⟨entry, hentry, another, hanother, -, -, hdiffer⟩ :=
      conflict_of_two hread hother hleaf hsame hagree hne
    exact Binder.bind_ne_ok_of_two hspec hentry hanother hdiffer bound hbind
  have hfound : leaf ∈ (settingLeaves fields).filter fun other ↦ Key.agree other.1 spec.name :=
    List.mem_filter.mpr ⟨hleaf, hagree⟩
  obtain ⟨earlier, last, hleaves⟩ :=
    (List.eq_nil_or_concat _).resolve_left (List.ne_nil_of_mem hfound)
  rw [List.concat_eq_append] at hleaves
  rw [hleaves] at hkeys
  have hlast : last.1 = leaf.1 := hkeys last (List.mem_append_right _ List.mem_cons_self)
  exact ⟨last, ⟨earlier, hleaves, fun other hother ↦
    (hkeys other (List.mem_append_left _ hother)).trans hlast.symm⟩, hlast⟩

/-- A section that is read gives the binder its values under their dotted keys. If two of them have
different dotted keys for one option, the option is in conflict over both and nothing is bound. If
all of them for an option have one dotted key, the option is bound from the last of them: from the
only one, if there is only one. -/
theorem settings_of_section {id : String} {fields : List (String × Datum)}
    {component : ComponentSection} (hread : ofDatum id (.table fields) = .ok component)
    (binder : Binder) (schema : Schema) (resolver : Resolver) {spec : OptionSpec}
    (hspec : spec ∈ schema.options) :
    (∀ first ∈ settingLeaves fields, ∀ second ∈ settingLeaves fields,
      Key.agree first.1 spec.name = true → Key.agree second.1 spec.name = true →
      first.1 ≠ second.1 →
        (∃ keys, first.1 ∈ keys ∧ second.1 ∈ keys ∧
          binder.resolved schema.id resolver component.rawValues spec =
            .error (.conflictingKeys schema.id spec.name keys)) ∧
        ∀ bound, (binder.bind schema component.rawValues resolver).value ≠ .ok bound) ∧
    ∀ earlier last, (settingLeaves fields).filter (fun leaf ↦ Key.agree leaf.1 spec.name) =
      earlier ++ [last] → (∀ leaf ∈ earlier, leaf.1 = last.1) →
        ∃ text, leafText? last.2 = some text ∧
          binder.BoundFrom schema resolver component.rawValues spec (last.1, .text text) := by
  constructor
  · intro first hfirst second hsecond hone htwo hne
    obtain ⟨entry, hentry, other, hother, hkey, hkey', hdiffer⟩ :=
      conflict_of_two hread hfirst hsecond hone htwo hne
    refine ⟨⟨_, ?_, ?_, Binder.resolved_of_two hentry hother hdiffer⟩, fun bound ↦
      Binder.bind_ne_ok_of_two hspec hentry hother hdiffer bound⟩
    · exact List.mem_mergeSort.mpr (hkey ▸ List.mem_map_of_mem hentry)
    · exact List.mem_mergeSort.mpr (hkey' ▸ List.mem_map_of_mem hother)
  · intro earlier last hleaves hsame
    obtain ⟨text, htext, honly⟩ := entriesOf_of_last hread hleaves hsame
    exact ⟨text, htext, Binder.boundFrom_of_only hspec honly⟩

/-- A component that is reached through a proxy. -/
def proxied : Schema where
  id := "proxied"
  options := [{ name := "proxyHost", kind := .string }, { name := "shardIds", kind := .list }]
  indexed := by decide +kernel

/-- The host of the proxy is given under two dotted keys and is in conflict. A list stands under
one, and the option is bound from it. -/
theorem settings_of_section_proxied :
    let fields : List (String × Datum) := [("proxy", .table [("host", .text "proxy.local")]),
      ("proxy-host", .text "proxy.prod"), ("shard-ids", .list [.text "a", .null, .int 2])]
    let component : ComponentSection :=
      ⟨"proxied", true,
        [("proxy-host", "proxy.prod"), ("proxy.host", "proxy.local"), ("shard-ids", "a,2")]⟩
    let binder : Binder := {}
    ofDatum "proxied" (.table fields) = .ok component ∧
      (∀ bound, (binder.bind proxied component.rawValues .none).value ≠ .ok bound) ∧
      binder.BoundFrom proxied .none component.rawValues { name := "shardIds", kind := .list }
        ("shard-ids", .text "a,2") := by
  intro fields component binder
  have hread : ofDatum "proxied" (.table fields) = .ok component := by decide +kernel
  have hhost : ({ name := "proxyHost", kind := .string } : OptionSpec) ∈ proxied.options := by
    decide +kernel
  have hshards : ({ name := "shardIds", kind := .list } : OptionSpec) ∈ proxied.options := by
    decide +kernel
  refine ⟨hread, ?_, ?_⟩
  · exact ((settings_of_section hread binder proxied .none hhost).1
      ("proxy.host", .text "proxy.local") (by decide +kernel)
      ("proxy-host", .text "proxy.prod") (by decide +kernel)
      (by decide +kernel) (by decide +kernel) (by decide +kernel)).2
  · obtain ⟨text, htext, hfrom⟩ := (settings_of_section hread binder proxied .none hshards).2 []
      ("shard-ids", .list [.text "a", .null, .int 2]) (by decide +kernel) (by simp)
    obtain rfl : "a,2" = text := Option.some.inj (htext ▸ by decide +kernel)
    exact hfrom

/-- The host of the proxy is given twice, in a nested table and written with points. Nothing is
refused: one of the two values is bound and the other one is gone. -/
theorem setting_overwritten :
    let fields : List (String × Datum) := [("proxy", .table [("host", .text "proxy.local")]),
      ("proxy.host", .text "proxy.prod")]
    let component : ComponentSection := ⟨"proxied", true, [("proxy.host", "proxy.prod")]⟩
    settingLeaves fields =
        [("proxy.host", .text "proxy.local"), ("proxy.host", .text "proxy.prod")] ∧
      Key.normal "proxy.host" = Key.normal "proxyHost" ∧
      ofDatum "proxied" (.table fields) = .ok component ∧
      (Binder.strict.bind proxied component.rawValues .none).value =
        .ok ⟨proxied, [some (.string "proxy.prod"), none]⟩ := by
  decide +kernel

end ComponentSection

end Connectors
