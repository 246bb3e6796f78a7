import Connectors.Proofs.Sections.Flattening
import Connectors.Proofs.Text.Pieces

/-!
# Lists in a section

A list in a section becomes one text, in which commas join the texts of its items (`ItemTexts`), and
an option of kind list takes this text apart again. The two steps are not inverse. Each item arrives
as what its own text is read as, so one with commas arrives as several and a blank one not at all,
and the whole list arrives as it is exactly if every text has the form of an item
(`items_of_array`).

This is about the value that decides the option. A list under the dotted key of a later value is
dropped like any other (`array_overwritten`).
-/

set_option autoImplicit false
set_option relaxedAutoImplicit false

namespace Connectors.ComponentSection

open OptionKind (IsItem listItems)

/-! ### Texts of items -/

/-- The texts of the items that are there, in order. -/
def ItemTexts (items : List Datum) (texts : List String) : Prop :=
  List.Forall₂ (fun item text ↦ scalarText? item = some text) (items.filter isPresent) texts

theorem itemTexts_null_cons {rest : List Datum} {texts : List String} :
    ItemTexts (.null :: rest) texts ↔ ItemTexts rest texts := by
  simp [ItemTexts, isPresent]

theorem itemTexts_cons {item : Datum} (hpresent : item ≠ .null) {rest : List Datum}
    {texts : List String} : ItemTexts (item :: rest) texts ↔
      ∃ text others, scalarText? item = some text ∧ ItemTexts rest others ∧
        texts = text :: others := by
  have hkept : (item :: rest).filter isPresent = item :: rest.filter isPresent :=
    List.filter_cons_of_pos (by simpa [isPresent] using hpresent)
  rw [ItemTexts, hkept, List.forall₂_cons_left_iff]
  rfl

theorem itemTexts?_eq_some_iff {items : List Datum} {texts : List String} :
    itemTexts? items = some texts ↔ ItemTexts items texts := by
  induction items generalizing texts with
  | nil => simp [itemTexts?, ItemTexts, eq_comm]
  | cons item rest ih =>
    by_cases hnull : item = .null
    · subst hnull
      rw [itemTexts_null_cons, ← ih]
      rfl
    · rw [itemTexts_cons hnull, itemTexts?.eq_def]
      cases htext : scalarText? item with
      | none => cases item <;> simp_all
      | some text => simp [htext, ih, eq_comm]

/-- The items of a list have texts when all of them are scalars or null. -/
theorem exists_itemTexts {items : List Datum}
    (hscalar : ∀ item ∈ items, item = .null ∨ ∃ text, scalarText? item = some text) :
    ∃ texts, ItemTexts items texts := by
  induction items with
  | nil => exact ⟨[], .nil⟩
  | cons item rest ih =>
    obtain ⟨hitem, hrest⟩ := List.forall_mem_cons.mp hscalar
    obtain ⟨texts, htexts⟩ := ih hrest
    by_cases hnull : item = .null
    · exact ⟨texts, hnull ▸ itemTexts_null_cons.mpr htexts⟩
    · obtain ⟨text, htext⟩ := hitem.resolve_left hnull
      exact ⟨text :: texts, (itemTexts_cons hnull).mpr ⟨text, texts, htext, htexts, rfl⟩⟩

theorem flatten_list {items : List Datum} {texts : List String} (htexts : ItemTexts items texts)
    (key : String) : flatten key (.list items) = .ok [(key, Text.join "," texts)] := by
  rw [flatten, itemTexts?_eq_some_iff.mpr htexts]

/-! ### Options of kind list -/

/-- A text gives an option of kind list its items. -/
theorem coerce_list {spec : OptionSpec} (hkind : spec.kind = .list) (component text : String)
    (resolver : Resolver) :
    Binder.coerce component resolver spec (.text text) = .ok (.list (listItems text)) := by
  simp [Binder.coerce, Binder.coerceText, OptionKind.parse, hkind]

/-- An option of kind list that a list decides is bound from it, item by item. -/
theorem Decides.resolved_list {id : String} {fields : List (String × Datum)}
    {component : ComponentSection} {spec : OptionSpec} {key : String} {items : List Datum}
    (hdecides : Decides fields spec (key, .list items))
    (hread : ofDatum id (.table fields) = .ok component) (hkind : spec.kind = .list)
    (binder : Binder) (schema : Schema) (resolver : Resolver) :
    ∃ texts, ItemTexts items texts ∧
      binder.resolved schema.id resolver component.rawValues spec =
        .ok (some (.list (texts.flatMap listItems))) := by
  obtain ⟨text, htext, hresolved⟩ := hdecides.exists_text hread binder schema resolver
  obtain ⟨texts, htexts, rfl⟩ := Option.map_eq_some_iff.mp (show
    (itemTexts? items).map (Text.join ",") = some text from htext)
  refine ⟨texts, itemTexts?_eq_some_iff.mp htexts, ?_⟩
  rw [hresolved, coerce_list hkind, OptionKind.listItems_join_eq_flatMap]
  rfl

/-- Lists arrive item by item. What is read from two texts with a comma between them is what is read
from the one and then from the other, and whatever is read has the form of items. A list of scalars
and nulls becomes one setting. Where it decides an option of kind list, the option has what is read
from the texts of its items, one after another, which is these texts exactly if all of them have the
form of items. Where another value decides, it stands under the same dotted key. -/
theorem items_of_array {id : String} {fields : List (String × Datum)} {component : ComponentSection}
    (hread : ofDatum id (.table fields) = .ok component) (binder : Binder) (schema : Schema)
    (resolver : Resolver) {spec : OptionSpec} (hspec : spec ∈ schema.options)
    (hkind : spec.kind = .list) :
    (∀ a b, listItems (a ++ "," ++ b) = listItems a ++ listItems b) ∧
    (∀ text, spec.kind.parse text = .ok (.list (listItems text)) ∧
      ∀ item ∈ listItems text, IsItem item) ∧
    (∀ key items, (∀ item ∈ items, item = .null ∨ ∃ text, scalarText? item = some text) →
      ∃ texts, ItemTexts items texts ∧
        flatten key (.list items) = .ok [(key, Text.join "," texts)]) ∧
    ∀ (key : String) (items : List Datum),
      (Decides fields spec (key, .list items) → ∃ texts, ItemTexts items texts ∧
        binder.resolved schema.id resolver component.rawValues spec =
          .ok (some (.list (texts.flatMap listItems))) ∧
        (∀ (bound : Bound) (index : Nat),
          (binder.bind schema component.rawValues resolver).value = .ok bound →
          schema.options[index]? = some spec →
            bound.values[index]? = some (some (.list (texts.flatMap listItems)))) ∧
        (texts.flatMap listItems = texts ↔ ∀ text ∈ texts, IsItem text)) ∧
      ((key, .list items) ∈ settingLeaves fields → Key.agree key spec.name = true →
        ∀ bound : Bound, (binder.bind schema component.rawValues resolver).value = .ok bound →
          ∃ last, Decides fields spec last ∧ last.1 = key) := by
  have hparse : ∀ text, spec.kind.parse text = .ok (.list (listItems text)) := by
    intro text
    rw [hkind]
    rfl
  refine ⟨OptionKind.listItems_append,
    fun text ↦ ⟨hparse text, fun _ ↦ OptionKind.isItem_of_mem_listItems⟩,
    fun key items hscalar ↦ ?_, fun key items ↦ ⟨fun hdecides ↦ ?_,
      fun hleaf hagree bound hbind ↦ exists_decides hread hbind hspec hleaf hagree⟩⟩
  · obtain ⟨texts, htexts⟩ := exists_itemTexts hscalar
    exact ⟨texts, htexts, flatten_list htexts key⟩
  · obtain ⟨texts, htexts, hresolved⟩ :=
      hdecides.resolved_list hread hkind binder schema resolver
    exact ⟨texts, htexts, hresolved, fun bound index ↦ Binder.getElem?_of_resolved hresolved,
      OptionKind.flatMap_listItems_eq_self_iff⟩

/-- A list in a nested table, with a null, a number, white space and commas among its items. -/
theorem items_of_array_proxied :
    let fields : List (String × Datum) := [("shard", .table
      [("ids", .list [.text " a ", .null, .int 2, .text "b,,c", .bool true])])]
    let component : ComponentSection := ⟨"proxied", true, [("shard.ids", " a ,2,b,,c,true")]⟩
    let binder : Binder := {}
    ofDatum "proxied" (.table fields) = .ok component ∧
      binder.resolved "proxied" .none component.rawValues { name := "shardIds", kind := .list } =
        .ok (some (.list ["a", "2", "b", "c", "true"])) := by
  intro fields component binder
  have hread : ofDatum "proxied" (.table fields) = .ok component := by decide +kernel
  have hdecides : Decides fields { name := "shardIds", kind := .list }
      ("shard.ids", .list [.text " a ", .null, .int 2, .text "b,,c", .bool true]) :=
    ⟨[], by decide +kernel, by simp⟩
  have hspec : ({ name := "shardIds", kind := .list } : OptionSpec) ∈ proxied.options := by
    decide +kernel
  obtain ⟨texts, htexts, hresolved, -⟩ :=
    ((items_of_array hread binder proxied .none hspec rfl).2.2.2 _ _).1 hdecides
  obtain rfl : [" a ", "2", "b,,c", "true"] = texts :=
    Option.some.inj (itemTexts?_eq_some_iff.mpr htexts ▸ by decide +kernel)
  exact ⟨hread, hresolved.trans (by decide +kernel)⟩

/-- A list in a nested table, and a text under the same key written with points. Nothing is refused:
the option has what is read from the text, and the list is gone. -/
theorem array_overwritten :
    let fields : List (String × Datum) :=
      [("shard", .table [("ids", .list [.text "a", .text "b"])]), ("shard.ids", .text "c")]
    let component : ComponentSection := ⟨"proxied", true, [("shard.ids", "c")]⟩
    settingLeaves fields =
        [("shard.ids", .list [.text "a", .text "b"]), ("shard.ids", .text "c")] ∧
      Key.normal "shard.ids" = Key.normal "shardIds" ∧
      ofDatum "proxied" (.table fields) = .ok component ∧
      (Binder.strict.bind proxied component.rawValues .none).value =
        .ok ⟨proxied, [none, some (.list ["c"])]⟩ := by
  decide +kernel

end Connectors.ComponentSection
