import Connectors.Proofs.Sections.Folding
import Connectors.Proofs.Sections.OneComponent

/-!
# What a folded section means

A section reaches the reader in two forms: with its tables, as it was written, or with its tables
folded into keys written with points, as sources are merged. Both forms have the same leaves. Where
no table stands under the empty key or under the key of the switch (`ComponentSection.Plain`),
folding and flattening name each leaf alike (`ComponentSection.dottedFields_of_plain`), and of the
leaves only the switch itself is named as the switch
(`ComponentSection.filter_switch_dottedFields`). What a table of fields is read as depends on its
leaves only, not on their order (`ComponentSection.ofDatum_eq_of_leaves`), so the two forms mean the
same (`ComponentSection.ofDatum_fold_iff`).

Neither condition can be left out (`ComponentSection.folded_means_otherwise`). A table under the key
of the switch is refused as it was written and becomes a setting when it is folded. A table under
the empty key gives its settings keys that begin with a point, which folding leaves out.
-/

set_option autoImplicit false
set_option relaxedAutoImplicit false

namespace Connectors

/-- Pairs with different names give the same fields in any order. -/
theorem Fields.ofList_eq_of_perm {α : Type} {pairs others : List (String × α)}
    (hnames : (pairs.map (·.1)).Nodup) (hperm : pairs.Perm others) :
    ofList pairs = ofList others := by
  have hothers : (others.map (·.1)).Nodup := (hperm.map _).nodup_iff.mp hnames
  exact (ordered_ofList pairs).eq_of_perm (ordered_ofList others)
    ((ofList_perm hnames).trans (hperm.trans (ofList_perm hothers).symm))

namespace Datum

/-! ### One name for each leaf -/

mutual

/-- Below a key that is not empty the path of a leaf is its dotted key. -/
theorem dotted_eq_leaves {key : String} (hkey : key ≠ "") (value : Datum) :
    dotted key value = leaves key value := by
  by_cases htable : ∃ fields, value = .table fields
  · obtain ⟨fields, rfl⟩ := htable
    rw [dotted, leaves]
    exact dottedFields_eq_fieldLeaves hkey fields
  · have hleaf : value.IsLeaf := not_exists.mp htable
    rw [dotted_of_isLeaf hleaf, leaves_of_isLeaf hleaf]

theorem dottedFields_eq_fieldLeaves {path : String} (hpath : path ≠ "")
    (fields : List (String × Datum)) :
    dottedFields (path ++ ".") fields = fieldLeaves path fields := by
  match fields with
  | [] => rfl
  | (key, value) :: rest =>
    have hpathTo : pathTo path key = path ++ "." ++ key := by simp [pathTo, hpath]
    have hne : path ++ "." ++ key ≠ "" := by simp
    rw [dottedFields, fieldLeaves, hpathTo, dotted_eq_leaves hne value,
      dottedFields_eq_fieldLeaves hpath rest]

end

/-- Where no table stands under the empty key, the path of each leaf is its dotted key. -/
theorem dottedFields_of_named {fields : List (String × Datum)}
    (hnamed : ∀ field ∈ fields, field.1 = "" → field.2.IsLeaf) :
    dottedFields "" fields = fieldLeaves "" fields := by
  induction fields with
  | nil => rfl
  | cons field rest ih =>
    obtain ⟨key, value⟩ := field
    obtain ⟨hfirst, hrest⟩ := List.forall_mem_cons.mp hnamed
    have hpathTo : pathTo "" key = key := by simp [pathTo]
    rw [dottedFields, fieldLeaves, ih hrest, hpathTo, String.empty_append]
    by_cases hkey : key = ""
    · have hleaf : value.IsLeaf := hfirst hkey
      rw [dotted_of_isLeaf hleaf, leaves_of_isLeaf hleaf]
    · rw [dotted_eq_leaves hkey]

mutual

theorem exists_append_of_mem_dotted {key : String} {value : Datum} {leaf : String × Datum}
    (hleaf : leaf ∈ dotted key value) : ∃ rest, leaf.1 = key ++ rest := by
  match value with
  | .table fields =>
    rw [dotted] at hleaf
    obtain ⟨rest, hrest⟩ := exists_append_of_mem_dottedFields hleaf
    exact ⟨"." ++ rest, by rw [hrest, String.append_assoc]⟩
  | .null | .bool _ | .int _ | .float _ | .text _ | .list _ =>
    rw [dotted_of_isLeaf (by simp [IsLeaf]), List.mem_singleton] at hleaf
    exact ⟨"", by simp [hleaf]⟩

/-- The dotted keys of leaves in fields begin with the path of the fields. -/
theorem exists_append_of_mem_dottedFields {path : String} {fields : List (String × Datum)}
    {leaf : String × Datum} (hleaf : leaf ∈ dottedFields path fields) :
    ∃ rest, leaf.1 = path ++ rest := by
  match fields with
  | [] => simp [dottedFields] at hleaf
  | (key, value) :: rest =>
    rw [dottedFields, List.mem_append] at hleaf
    rcases hleaf with hfirst | hrest
    · obtain ⟨rest, hname⟩ := exists_append_of_mem_dotted hfirst
      exact ⟨key ++ rest, by rw [hname, String.append_assoc]⟩
    · exact exists_append_of_mem_dottedFields hrest

end

end Datum

namespace ComponentSection

open Datum (dotted dottedFields fieldLeaves IsLeaf)

/-- No table stands under the empty key or under the key of the switch. -/
def Plain (fields : List (String × Datum)) : Prop :=
  ∀ field ∈ fields, field.1 = "" ∨ field.1 = switchKey → field.2.IsLeaf

/-- In plain fields folding and flattening name each leaf alike. -/
theorem dottedFields_of_plain {fields : List (String × Datum)} (hplain : Plain fields) :
    dottedFields "" fields = fieldLeaves "" fields :=
  Datum.dottedFields_of_named fun field hfield hkey ↦ hplain field hfield (.inl hkey)

/-- Only what stands under the very key of the switch is named as the switch. -/
theorem eq_of_mem_dotted_switch {key : String} {value : Datum}
    (hplain : key = switchKey → value.IsLeaf) {leaf : String × Datum}
    (hleaf : leaf ∈ dotted key value) (hname : leaf.1 = switchKey) : key = switchKey := by
  by_cases htable : ∃ fields, value = .table fields
  · obtain ⟨fields, rfl⟩ := htable
    rw [dotted] at hleaf
    obtain ⟨rest, hrest⟩ := Datum.exists_append_of_mem_dottedFields hleaf
    have hpoint : '.' ∈ (key ++ "." ++ rest).toList := by simp
    rw [← hrest, hname] at hpoint
    exact absurd hpoint (by decide)
  · rw [Datum.dotted_of_isLeaf (not_exists.mp htable), List.mem_singleton] at hleaf
    rw [← hname, hleaf]

/-- The leaves of plain fields are the switch, as it stands there, and those of the other fields. -/
theorem filter_switch_dottedFields {fields : List (String × Datum)} (hplain : Plain fields) :
    (dottedFields "" fields).filter (·.1 = switchKey) = fields.filter (·.1 = switchKey) ∧
      (dottedFields "" fields).filter (·.1 ≠ switchKey) =
        dottedFields "" (fields.filter (·.1 ≠ switchKey)) := by
  induction fields with
  | nil => exact ⟨rfl, rfl⟩
  | cons field rest ih =>
    obtain ⟨key, value⟩ := field
    obtain ⟨hfirst, hrest⟩ := List.forall_mem_cons.mp hplain
    obtain ⟨hswitch, hothers⟩ := ih hrest
    rw [dottedFields, String.empty_append, List.filter_append, List.filter_append, hswitch, hothers]
    by_cases hkey : key = switchKey
    · rw [Datum.dotted_of_isLeaf (hfirst (.inr hkey))]
      simp [hkey]
    · have hnone : ∀ leaf ∈ dotted key value, leaf.1 ≠ switchKey := fun leaf hleaf hname ↦
        hkey (eq_of_mem_dotted_switch (fun h ↦ absurd h hkey) hleaf hname)
      have hall : (dotted key value).filter (·.1 ≠ switchKey) = dotted key value :=
        List.filter_eq_self.mpr fun leaf hleaf ↦ by simpa using hnone leaf hleaf
      have hempty : (dotted key value).filter (·.1 = switchKey) = [] :=
        List.filter_eq_nil_iff.mpr fun leaf hleaf ↦ by simpa using hnone leaf hleaf
      rw [hall, hempty]
      simp [hkey, dottedFields]

/-! ### Reading by leaves -/

/-- Only what stands under the very key of the switch counts for its position. -/
theorem position_filter (enabled : Bool) (fields : List (String × Datum)) :
    position enabled (fields.filter (·.1 = switchKey)) = position enabled fields := by
  induction fields generalizing enabled with
  | nil => rfl
  | cons field rest ih =>
    obtain ⟨key, value⟩ := field
    by_cases hkey : key = switchKey
    · simp only [List.filter_cons, hkey, decide_true, if_true, position, ih]
    · simp only [List.filter_cons, hkey, decide_false, Bool.false_eq_true, if_false, position, ih]

theorem position_eq_of_perm {first second : List (String × Datum)}
    (hnames : (Fields.names first).Nodup) (hperm : first.Perm second) {enabled : Bool} :
    position enabled first = position enabled second := by
  have hothers : (Fields.names second).Nodup := (hperm.map _).nodup_iff.mp hnames
  have hget : Fields.get? switchKey first = Fields.get? switchKey second := by
    ext value
    rw [Fields.get?_eq_some_iff hnames, Fields.get?_eq_some_iff hothers, hperm.mem_iff]
  rw [position_eq hnames, position_eq hothers, hget]

theorem ofDatum_table_eq_ok_iff {id : String} {fields : List (String × Datum)}
    {component : ComponentSection} : ofDatum id (.table fields) = .ok component ↔
      component.id = id ∧ position true fields = .ok component.enabled ∧ ∃ settings,
        flattenFields "" (fields.filter (·.1 ≠ switchKey)) = .ok settings ∧
          component.values = Fields.ofList settings := by
  obtain ⟨name, on, result⟩ := component
  have hread := @read_eq_ok_iff true on [] result fields
  refine Iff.trans ?_ (and_congr_right fun _ ↦ hread)
  rw [ofDatum]
  cases read true [] fields with
  | error fault => simp
  | ok answer => simp [Prod.ext_iff, eq_comm]

/-- The settings that leaves give. -/
def settingsOf (leaves : List (String × Datum)) : List (String × String) :=
  leaves.filterMap fun leaf ↦ (leafText? leaf.2).map fun text ↦ (leaf.1, text)

theorem eq_settingsOf_of_gives {leaves : List (String × Datum)} {settings : List (String × String)}
    (hgives : List.Forall₂ Gives leaves settings) : settings = settingsOf leaves := by
  induction hgives with
  | nil => rfl
  | @cons leaf setting _ _ hfirst _ ih =>
    obtain ⟨key, text⟩ := setting
    obtain ⟨rfl, htext⟩ : key = leaf.1 ∧ leafText? leaf.2 = some text := hfirst
    rw [settingsOf, List.filterMap_cons, htext, Option.map_some, ih]
    rfl

theorem isSome_of_gives {leaves : List (String × Datum)} {settings : List (String × String)}
    (hgives : List.Forall₂ Gives leaves settings) :
    ∀ leaf ∈ leaves, (leafText? leaf.2).isSome = true := by
  induction hgives with
  | nil => simp
  | cons hfirst _ ih => exact List.forall_mem_cons.mpr ⟨by rw [hfirst.2]; rfl, ih⟩

/-- Fields are flattened exactly when each of their leaves that is there has a text, to the settings
that the leaves give. -/
theorem flattenFields_eq_ok_iff {path : String} {fields : List (String × Datum)}
    {settings : List (String × String)} : flattenFields path fields = .ok settings ↔
      (∀ leaf ∈ dottedFields path fields, isPresent leaf.2 = true →
        (leafText? leaf.2).isSome = true) ∧ settings = settingsOf (dottedFields path fields) := by
  have hsettings : ∀ {others}, flattenFields path fields = .ok others →
      others = settingsOf (dottedFields path fields) := by
    intro others hflatten
    rw [eq_settingsOf_of_gives (gives_of_flattenFields path fields hflatten), settingsOf,
      List.filterMap_filter, settingsOf]
    refine List.filterMap_congr fun leaf _ ↦ ?_
    -- what is null has no text
    by_cases hnull : leaf.2 = .null <;> simp [isPresent, hnull, leafText?, scalarText?]
  constructor
  · intro hflatten
    refine ⟨fun leaf hleaf hpresent ↦ ?_, hsettings hflatten⟩
    exact isSome_of_gives (gives_of_flattenFields path fields hflatten) leaf
      (List.mem_filter.mpr ⟨hleaf, hpresent⟩)
  · rintro ⟨htexts, rfl⟩
    obtain ⟨others, hothers⟩ := exists_flattenFields path fields htexts
    rw [hothers, hsettings hothers]

theorem names_settingsOf_sublist (leaves : List (String × Datum)) :
    ((settingsOf leaves).map (·.1)).Sublist (leaves.map (·.1)) := by
  induction leaves with
  | nil => exact .refl _
  | cons leaf rest ih =>
    rw [settingsOf, List.filterMap_cons]
    cases leafText? leaf.2 with
    | none => exact ih.cons leaf.1
    | some text => exact ih.cons_cons leaf.1

/-- What is read from a table depends on the position of its switch and on its other leaves, whose
order does not count where each has a name of its own. -/
theorem ofDatum_eq_of_leaves {id : String} {first second : List (String × Datum)}
    {component : ComponentSection} (hswitch : position true first = position true second)
    (hleaves : (dottedFields "" (first.filter (·.1 ≠ switchKey))).Perm
      (dottedFields "" (second.filter (·.1 ≠ switchKey))))
    (hnames : ((dottedFields "" (first.filter (·.1 ≠ switchKey))).map (·.1)).Nodup)
    (hread : ofDatum id (.table first) = .ok component) :
    ofDatum id (.table second) = .ok component := by
  obtain ⟨hid, hposition, settings, hflatten, hvalues⟩ := ofDatum_table_eq_ok_iff.mp hread
  obtain ⟨htexts, rfl⟩ := flattenFields_eq_ok_iff.mp hflatten
  refine ofDatum_table_eq_ok_iff.mpr ⟨hid, hswitch ▸ hposition, _,
    flattenFields_eq_ok_iff.mpr ⟨fun leaf hleaf ↦ htexts leaf (hleaves.mem_iff.mpr hleaf), rfl⟩, ?_⟩
  rw [hvalues]
  exact Fields.ofList_eq_of_perm ((names_settingsOf_sublist _).nodup hnames) (hleaves.filterMap _)

/-! ### The two forms of a section -/

/-- A section means the same whether its tables are folded before it is read or not: it is read in
both forms or in neither, with the same position of its switch and the same settings. -/
theorem ofDatum_fold_iff {id : String} {fields : List (String × Datum)} {folded : Datum}
    (hplain : Plain fields) (hfold : Relaxed.fold id (.table fields) = .ok folded)
    (component : ComponentSection) :
    ofDatum id folded = .ok component ↔ ofDatum id (.table fields) = .ok component := by
  have hcases := Relaxed.fold_cases id (.table fields)
  rw [hfold] at hcases
  cases hcases with
  | leaf hleaf => exact absurd rfl (hleaf fields)
  | @table fields' entries hvalue hperm hordered =>
    obtain rfl := Datum.table.inj hvalue
    rw [← dottedFields_of_plain hplain] at hperm
    have hleaf : ∀ entry ∈ entries, entry.2.IsLeaf := fun entry hentry ↦
      Datum.isLeaf_of_mem_fieldLeaves "" fields entry
        (dottedFields_of_plain hplain ▸ hperm.mem_iff.mp hentry)
    have hflat : ∀ kept : List (String × Datum), (∀ entry ∈ kept, entry ∈ entries) →
        dottedFields "" kept = kept := fun kept hkept ↦
      Datum.dottedFields_of_isLeaf fun entry hentry ↦ hleaf entry (hkept entry hentry)
    obtain ⟨hswitch, hothers⟩ := filter_switch_dottedFields hplain
    have hposition : position true entries = position true fields := by
      rw [position_eq_of_perm hordered.nodup_names hperm, ← position_filter, hswitch,
        position_filter]
    have hleaves : (dottedFields "" (entries.filter (·.1 ≠ switchKey))).Perm
        (dottedFields "" (fields.filter (·.1 ≠ switchKey))) := by
      rw [hflat _ fun entry hentry ↦ (List.mem_filter.mp hentry).1, ← hothers]
      exact hperm.filter _
    have hnames : ((dottedFields "" (entries.filter (·.1 ≠ switchKey))).map (·.1)).Nodup := by
      rw [hflat _ fun entry hentry ↦ (List.mem_filter.mp hentry).1]
      exact (List.filter_sublist.map _).nodup hordered.nodup_names
    exact ⟨ofDatum_eq_of_leaves hposition hleaves hnames,
      ofDatum_eq_of_leaves hposition.symm hleaves.symm ((hleaves.map _).nodup_iff.mp hnames)⟩

/-- The section of a component that takes orders through a proxy, with nested tables, a list, a key
written with points and nothing under one key. It is read alike in both forms. -/
theorem ofDatum_fold_iff_orders :
    let fields : List (String × Datum) := [("enabled", .text "FALSE"),
      ("proxy", .table [("host", .text "proxy.local"),
        ("ports", .list [.int 80, .null, .int 443])]),
      ("proxy.user", .text "mq"), ("queues", .table []), ("region", .null)]
    let folded : Datum := .table [("enabled", .text "FALSE"), ("proxy.host", .text "proxy.local"),
      ("proxy.ports", .list [.int 80, .null, .int 443]), ("proxy.user", .text "mq"),
      ("region", .null)]
    let component : ComponentSection := ⟨"orders", false,
      [("proxy.host", "proxy.local"), ("proxy.ports", "80,443"), ("proxy.user", "mq")]⟩
    Plain fields ∧ Relaxed.fold "orders" (.table fields) = .ok folded ∧
      ofDatum "orders" folded = .ok component ∧
        ofDatum "orders" (.table fields) = .ok component := by
  intro fields folded component
  have hplain : Plain fields := by simp [Plain, fields, switchKey, Datum.IsLeaf]
  have hfold : Relaxed.fold "orders" (.table fields) = .ok folded := by decide +kernel
  have hread : ofDatum "orders" (.table fields) = .ok component := by decide +kernel
  exact ⟨hplain, hfold, (ofDatum_fold_iff hplain hfold component).mpr hread, hread⟩

/-- A table under the key of the switch is refused, but once it is folded it is a setting and the
component is on. A table under the empty key gives settings under keys with a point before them,
which are without it once the table is folded. -/
theorem folded_means_otherwise :
    let turned : Datum := .table [("enabled", .table [("since", .int 2024)])]
    let nameless : Datum := .table [("", .table [("host", .text "mq.local")])]
    (Relaxed.fold "orders" turned = .ok (.table [("enabled.since", .int 2024)]) ∧
      ofDatum "orders" (.table [("enabled.since", .int 2024)]) =
        .ok ⟨"orders", true, [("enabled.since", "2024")]⟩ ∧
      ∀ component, ofDatum "orders" turned ≠ .ok component) ∧
    Relaxed.fold "orders" nameless = .ok (.table [("host", .text "mq.local")]) ∧
      ofDatum "orders" (.table [("host", .text "mq.local")]) =
        .ok ⟨"orders", true, [("host", "mq.local")]⟩ ∧
      ofDatum "orders" nameless = .ok ⟨"orders", true, [(".host", "mq.local")]⟩ := by
  intro turned nameless
  have hrefused : ofDatum "orders" turned =
      .error (.invalidSection "orders" (.switchNotBoolean "\x7b\"since\":2024\x7d")) := by
    decide +kernel
  refine ⟨⟨by decide +kernel, by decide +kernel, fun component hread ↦ ?_⟩, by decide +kernel,
    by decide +kernel, by decide +kernel⟩
  rw [hrefused] at hread
  cases hread

end ComponentSection

end Connectors
