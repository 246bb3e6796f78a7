import Connectors.Proofs.Loader.OneOption

/-!
# The switch of a component in merged sources

The switch of a component is read from the very key `enabled` of its section, while sources are
merged with keys in any spelling. So the first source that sets the switch decides whether it is
one: if it spells the key `enabled` the component is switched as the last source says, in whatever
spelling (`merged_switch`). If the first source spells the key in another way, every later `enabled`
takes that spelling, is an option like any other, and leaves the component on (`switch_respelled`).
-/

set_option autoImplicit false
set_option relaxedAutoImplicit false

namespace Connectors.Layer

open Spelling Relaxed ComponentSection

/-- What is a position of the switch once numbers are settled was one before. -/
theorem switch_settled {value : Datum} {enabled : Bool}
    (hswitch : switch value.settled = .ok enabled) : switch value = .ok enabled := by
  cases value with
  | bool _ | text _ => simpa only [Datum.settled] using hswitch
  | float number =>
    rw [Datum.settled] at hswitch
    split_ifs at hswitch <;> simp [switch] at hswitch
  | null | int _ | list _ | table _ => simp [Datum.settled, switch] at hswitch

/-- The switch in a table that has one key for it: recognized by its very spelling, and on
otherwise. -/
theorem switch_of_clear {id : String} {entries : List (String × Datum)}
    {component : ComponentSection} (hclear : ClearTable switchKey entries)
    (hread : ofDatum id (.table entries) = .ok component) {field : String × Datum}
    (hfind : find? switchKey entries = some field) :
    (field.1 = switchKey → switch field.2 = .ok component.enabled) ∧
      (field.1 ≠ switchKey → component.enabled = true) := by
  have hposition := switch_of_ofDatum hclear.ordered hread
  have hnames := hclear.ordered.nodup_names
  obtain ⟨hmem, hname⟩ := (find?_eq_some_iff_of_onceFor hnames hclear.once).mp hfind
  constructor
  · intro hkey
    have hget : Fields.get? switchKey entries = some field.2 := by
      rw [Fields.get?_eq_some_iff hnames, ← hkey]
      exact hmem
    rwa [hget] at hposition
  · intro hkey
    have hnone : Fields.get? switchKey entries = none := by
      rw [Fields.get?_eq_none_iff, Fields.mem_names_iff]
      rintro ⟨value, hvalue⟩
      exact hkey (hclear.once field hmem (switchKey, value) hvalue hname rfl)
    rw [hnone] at hposition
    exact (Except.ok.inj hposition).symm

/-- A component that sources set the switch of has one section in a configuration that is read from
them. If the first of these sources spells the key `enabled`, the section has the position that the
last of them gives. If the first one spells it otherwise, the section is on. -/
theorem merged_switch {id : String} {sources : List (List (String × Datum))}
    (hsources : ∀ source ∈ sources, ClearSource id switchKey source) {config : Config}
    (hextract : Loader.extract (mergeAll sources) = .ok config)
    {components : List ComponentSection} (hsections : config.sections = .ok components)
    {first last : String × Datum}
    (hfirst : (sources.filterMap fun source ↦
      setting? id switchKey (sections (.ok source))).head? = some first)
    (hlast : (sources.filterMap fun source ↦
      setting? id switchKey (sections (.ok source))).getLast? = some last) :
    ∃ component ∈ components, Key.normal component.id = Key.normal id ∧
      (∀ other ∈ components, Key.normal other.id = Key.normal id → other = component) ∧
      (first.1 = switchKey → switch last.2 = .ok component.enabled) ∧
      (first.1 ≠ switchKey → component.enabled = true) := by
  cases hmerge : mergeAll sources with
  | error fault =>
    rw [hmerge] at hextract
    cases hextract
  | ok fields =>
    obtain ⟨merged, hholds, -, hoption⟩ := mergeAll_option hsources hmerge
    rw [hmerge] at hextract
    obtain ⟨_, _, -, htable, hfield, component, hmem, hread, hid, honly⟩ :=
      exists_component hholds hextract hsections fun honce ↦
        (hoption honce).imp_right fun hsetting ↦
          hsetting.trans (by rw [firstAndLast, hfirst, hlast])
    obtain ⟨hkey, hother⟩ := switch_of_clear htable hread hfield
    exact ⟨component, hmem, hid, honly, fun hspelled ↦ switch_settled (hkey hspelled), hother⟩

/-- The first source spells the switch by its key, the second one otherwise, and the last one,
whatever the case of its text, decides. -/
theorem merged_switch_orders :
    let file : List (String × Datum) := [(componentsKey, .table [("aws-orders", .table
      [("enabled", .bool true), ("streamName", .text "orders")])])]
    let variant : List (String × Datum) := [(componentsKey, .table [("awsOrders", .table
      [("ENABLED", .bool true)])])]
    let environment : List (String × Datum) := [(componentsKey, .table [("aws_orders", .table
      [("enabled", .text "FALSE")])])]
    let sources := [file, variant, environment]
    ∃ config components, Loader.extract (mergeAll sources) = .ok config ∧
      config.sections = .ok components ∧ ∃ component ∈ components,
        Key.normal component.id = "awsorders" ∧ component.enabled = false := by
  intro file variant environment sources
  have hclear : ∀ source ∈ sources, ClearSource "awsOrders" switchKey source := by
    simp only [sources, List.forall_mem_cons]
    refine ⟨?_, ?_, ?_, by simp⟩ <;>
    · refine clearSource_of_sections ⟨by decide +kernel, fun given hgiven _ ↦ ?_⟩
      obtain rfl := List.mem_singleton.mp hgiven
      exact ⟨_, rfl, by decide +kernel⟩
  let config : Config := { components := [("aws-orders", .table
    [("enabled", .text "FALSE"), ("streamName", .text "orders")])] }
  let components : List ComponentSection := [⟨"aws-orders", false, [("streamName", "orders")]⟩]
  have hextract : Loader.extract (mergeAll sources) = .ok config := by decide +kernel
  have hsections : config.sections = .ok components := by decide +kernel
  have hfirst : (sources.filterMap fun source ↦
      setting? "awsOrders" switchKey (sections (.ok source))).head? =
        some ("enabled", .bool true) := by decide +kernel
  have hlast : (sources.filterMap fun source ↦
      setting? "awsOrders" switchKey (sections (.ok source))).getLast? =
        some ("enabled", .text "FALSE") := by decide +kernel
  obtain ⟨component, hmem, hid, -, hswitch, -⟩ :=
    merged_switch hclear hextract hsections hfirst hlast
  have hposition : switch (.text "FALSE") = .ok component.enabled := hswitch rfl
  have hoff : switch (.text "FALSE") = .ok false := by decide +kernel
  exact ⟨config, components, hextract, hsections, component, hmem, hid,
    (Except.ok.inj (hoff.symm.trans hposition)).symm⟩

/-- The first source spells the key `Enabled`. The last one, and the only one that sets the switch,
turns the component off; its section is on. -/
theorem switch_respelled :
    let earlier : List (String × Datum) := [(componentsKey, .table [("orders", .table
      [("Enabled", .bool true)])])]
    let later : List (String × Datum) := [(componentsKey, .table [("orders", .table
      [(switchKey, .bool false)])])]
    let config : Config := { components := [("orders", .table [("Enabled", .bool false)])] }
    Loader.extract (mergeAll [earlier, later]) = .ok config ∧
      config.sections = .ok [⟨"orders", true, [("Enabled", "false")]⟩] := by
  decide +kernel

end Connectors.Layer
