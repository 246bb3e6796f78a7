import Connectors.Proofs.Fields
import Connectors.Proofs.Json.RoundTrip
import Connectors.Proofs.Schema.Building
import Connectors.Schema.Document

/-!
# Reading a schema document back

What `Draft.datum` writes is read by `Draft.ofDocument?` as the same draft
(`Draft.ofDocument?_datum`), so reading the text of a document comes to building the draft
(`Schema.ofText_datum`), and a schema is read back from the text of its document
(`Schema.ofText_document`).

The members of a document are written in the order of their names and read by name, so the order
does not matter: the only member of a name is the one that was written (`Json.only?_written`). An
option shares its object with the members that tell its kind. Neither takes a name of the other
(`OptionSpec.get?_kind_fields`), and what is left of the object without the members of the option
tells the kind (`OptionKind.ofFields?_eq`).
-/

set_option autoImplicit false
set_option relaxedAutoImplicit false

namespace Connectors

/-! ### Members of an object -/

namespace Json

/-- The members that fields are written as. -/
def writtenMembers (fields : List (String × Datum)) : List (String × Json) :=
  fields.map fun field ↦ (field.1, field.2.written)

theorem members?_writtenFields (fields : List (String × Datum)) :
    members? (Datum.writtenFields fields) = some (writtenMembers fields) := by
  induction fields with
  | nil => rfl
  | cons field rest ih => simp [Datum.writtenFields, members?, ih, writtenMembers]

/-- Where no name stands twice, the only member of a name is the one written for its field. -/
theorem only?_written {α : Type} {fields : List (String × Datum)}
    (hnames : (Fields.names fields).Nodup) (name : String) (absent : Option α)
    (read : Json → Option α) :
    only? (writtenMembers fields) name absent read =
      match Fields.get? name fields with
      | none => absent
      | some value => read value.written := by
  have hfilter : (writtenMembers fields).filter (·.1 = name) =
      (fields.filter (·.1 = name)).map fun field ↦ (field.1, field.2.written) := by
    rw [writtenMembers, List.filter_map]
    rfl
  rw [only?, hfilter, Fields.filter_name hnames]
  cases Fields.get? name fields <;> rfl

/-- Data are read back from their members if each of their values is. -/
theorem mapM_writtenMembers {depth : Nat} {fields : List (String × Datum)}
    (hback : ∀ field ∈ fields, field.2.written.datumWithin? depth = some field.2) :
    ((writtenMembers fields).mapM fun member ↦
      (member.2.datumWithin? depth).map fun value ↦ (member.1, value)) = some fields := by
  induction fields with
  | nil => rfl
  | cons field rest ih =>
    obtain ⟨hfirst, hrest⟩ := List.forall_mem_cons.mp hback
    have htail := ih hrest
    rw [writtenMembers] at htail ⊢
    rw [List.map_cons, List.mapM_cons, hfirst, htail]
    rfl

theorem itemsWithin?_texts (depth : Nat) (texts : List String) :
    itemsWithin? depth (Datum.writtenItems (texts.map .text)) = some (texts.map .text) := by
  induction texts with
  | nil => rfl
  | cons text rest ih =>
    rw [List.map_cons, Datum.writtenItems, itemsWithin?, ih]
    rfl

end Json

theorem texts?_texts (texts : List String) :
    Datum.texts? (.list (texts.map .text)) = some texts := by
  induction texts with
  | nil => rfl
  | cons text rest ih =>
    rw [Datum.texts?] at ih ⊢
    rw [List.map_cons, List.mapM_cons, ih]
    rfl

theorem numberless_ofList {fields : List (String × Datum)} (hnames : (Fields.names fields).Nodup)
    (hfields : ∀ field ∈ fields, field.2.Numberless) :
    (Datum.table (Fields.ofList fields)).Numberless :=
  Datum.numberlessFields_iff.mpr fun field hfield ↦
    hfields field ((Fields.ofList_perm hnames).mem_iff.mp hfield)

/-! ### Optional members -/

theorem get?_optionalField (name other : String) (value : Option String) :
    Fields.get? name (optionalField other value) =
      if other = name then value.map .text else none := by
  cases value <;> simp [optionalField, Fields.get?]

theorem names_optionalField_sublist (name : String) (value : Option String) :
    (Fields.names (optionalField name value)).Sublist [name] := by
  cases value <;> simp [optionalField, Fields.names]

theorem numberless_optionalField (name : String) (value : Option String) :
    ∀ field ∈ optionalField name value, field.2.Numberless := by
  cases value <;> simp [optionalField, Datum.Numberless]

/-! ### The kind of an option -/

namespace OptionKind

variable (kind : OptionKind)

theorem names_fields_sublist :
    (Fields.names kind.fields).Sublist ["type", "values", "typeName"] := by
  cases kind <;> simp [fields, Fields.names]

/-- What a kind adds to the document of its option is read back, whatever stands around it. -/
theorem datumWithin?_fields (depth : Nat) :
    ∀ field ∈ kind.fields, field.2.written.datumWithin? (depth + 1) = some field.2 := by
  cases kind <;>
    simp [fields, Datum.written, Json.datumWithin?, Json.itemsWithin?_texts]

theorem numberless_fields : ∀ field ∈ kind.fields, field.2.Numberless := by
  have hvalues : ∀ values : List String, Datum.NumberlessItems (values.map .text) := fun values ↦
    Datum.numberlessItems_iff.mpr (by simp [Datum.Numberless])
  cases kind <;> simp [fields, Datum.Numberless, hvalues]

/-- Fields among which the names of a kind lead to its own fields tell the kind. -/
theorem ofFields?_eq {others : List (String × Datum)} (hnames : (Fields.names others).Nodup)
    (hget : ∀ name, Fields.get? name others = Fields.get? name kind.fields) :
    ofFields? others = some kind := by
  simp only [ofFields?, Fields.filter_name hnames, hget]
  cases kind <;> simp [fields, Fields.get?, name, texts?_texts]

end OptionKind

/-! ### Options -/

namespace OptionSpec

variable (spec : OptionSpec)

/-- The members of an option, before they are put in order. -/
def members : List (String × Datum) :=
  [("name", .text spec.name), ("required", .bool spec.required),
      ("deprecated", .bool spec.deprecated), ("secret", .bool spec.secret),
      ("autowired", .bool spec.autowired)]
    ++ spec.kind.fields ++ optionalField "defaultValue" spec.fallback
    ++ optionalField "description" spec.description

theorem datum_eq : spec.datum = .table (Fields.ofList spec.members) := rfl

theorem nodup_names_members : (Fields.names spec.members).Nodup := by
  have hsublist : (Fields.names spec.members).Sublist
      (["name", "required", "deprecated", "secret", "autowired"] ++
        ["type", "values", "typeName"] ++ ["defaultValue"] ++ ["description"]) := by
    simp only [members, Fields.names, List.map_append]
    exact (((List.Sublist.refl _).append spec.kind.names_fields_sublist).append
      (names_optionalField_sublist _ _)).append (names_optionalField_sublist _ _)
  exact List.Nodup.sublist hsublist (by decide)

/-- Under a name that an option has no member of, its document holds what tells its kind. -/
theorem get?_members_of_not_mem {name : String} (hname : name ∉ memberNames) :
    Fields.get? name spec.members = Fields.get? name spec.kind.fields := by
  simp only [memberNames, List.mem_cons, List.not_mem_nil, not_or, or_false] at hname
  simp [members, Fields.get?_append, Fields.get?, get?_optionalField, Ne.symm, hname]

/-- Under a name of its members, the document of an option holds nothing of its kind. -/
theorem get?_kind_fields {name : String} (hname : name ∈ memberNames) :
    Fields.get? name spec.kind.fields = none := by
  have hapart : ∀ name ∈ memberNames, name ∉ ["type", "values", "typeName"] := by decide
  exact Fields.get?_eq_none_iff.mpr fun hmem ↦
    hapart name hname (spec.kind.names_fields_sublist.subset hmem)

/-- An option is read back from its document. -/
theorem ofJson?_datum {depth : Nat} (hdepth : 0 < depth) :
    ofJson? depth spec.datum.written = some spec := by
  obtain ⟨depth, rfl⟩ : ∃ shallower, depth = shallower + 1 := ⟨depth - 1, by omega⟩
  have hget : ∀ name, Fields.get? name (Fields.ofList spec.members) =
      Fields.get? name spec.members := Fields.get?_ofList spec.nodup_names_members
  have hnames : (Fields.names (Fields.ofList spec.members)).Nodup :=
    (Fields.ordered_ofList spec.members).nodup_names
  have hothers : OptionKind.ofFields? ((Fields.ofList spec.members).filter
      fun field ↦ !memberNames.contains field.1) = some spec.kind := by
    refine spec.kind.ofFields?_eq (hnames.sublist (List.filter_sublist.map _)) fun name ↦ ?_
    rw [Fields.get?_filter fun name ↦ !memberNames.contains name, hget]
    by_cases hname : name ∈ memberNames
    · simp [hname, spec.get?_kind_fields hname]
    · simp [hname, spec.get?_members_of_not_mem hname]
  have hback : ∀ field ∈ (Fields.ofList spec.members).filter
      (fun field ↦ !memberNames.contains field.1),
      field.2.written.datumWithin? (depth + 1) = some field.2 := by
    rintro ⟨name, value⟩ hfield
    obtain ⟨hmem, hname⟩ := List.mem_filter.mp hfield
    have hvalue := (Fields.get?_eq_some_iff hnames).mpr hmem
    rw [hget, spec.get?_members_of_not_mem (by simpa using hname)] at hvalue
    exact spec.kind.datumWithin?_fields depth _ (Fields.mem_of_get?_eq_some hvalue)
  have hfilter : (Json.writtenMembers (Fields.ofList spec.members)).filter
      (fun member ↦ !memberNames.contains member.1) =
      Json.writtenMembers ((Fields.ofList spec.members).filter
        fun field ↦ !memberNames.contains field.1) := by
    rw [Json.writtenMembers, List.filter_map]
    rfl
  have hread := Json.mapM_writtenMembers hback
  rw [datum_eq, Datum.written]
  simp only [ofJson?, Json.members?_writtenFields, Option.bind_eq_bind, Option.bind_some, hfilter,
    hread, hothers, Json.only?_written hnames, hget]
  have hfallback := spec.get?_kind_fields (show "defaultValue" ∈ memberNames by decide)
  have hdescription := spec.get?_kind_fields (show "description" ∈ memberNames by decide)
  simp only [members, List.cons_append, List.nil_append, Fields.get?_append, Fields.get?,
    get?_optionalField, hfallback, hdescription, Option.none_or]
  cases spec with
  | mk name kind fallback required deprecated secret autowired description =>
    cases fallback <;> cases description <;> rfl

/-- No number occurs in the document of an option. -/
theorem numberless_datum : spec.datum.Numberless := by
  refine numberless_ofList spec.nodup_names_members ?_
  simp only [List.forall_mem_append, List.forall_mem_cons, List.not_mem_nil,
    IsEmpty.forall_iff, implies_true, and_true]
  exact ⟨⟨⟨⟨trivial, trivial, trivial, trivial, trivial⟩, spec.kind.numberless_fields⟩,
    numberless_optionalField _ _⟩, numberless_optionalField _ _⟩

end OptionSpec

/-! ### Schemas -/

theorem ComponentKind.ofName?_name (kind : ComponentKind) : ofName? kind.name = some kind := by
  cases kind <;> rfl

/-- The options of a document are read back one by one. -/
theorem OptionSpec.listOfJson?_datum (options : List OptionSpec) {depth : Nat}
    (hdepth : 2 < depth) :
    listOfJson? depth (.array (Datum.writtenItems (options.map datum))) = some options := by
  rw [listOfJson?]
  induction options with
  | nil => rfl
  | cons spec rest ih =>
    rw [List.map_cons, Datum.writtenItems, List.mapM_cons, spec.ofJson?_datum (by omega), ih]
    rfl

namespace Draft

variable (draft : Draft)

/-- The members of a document, before they are put in order. -/
def members : List (String × Datum) :=
  [("id", .text draft.id), ("kind", .text draft.kind.name)]
    ++ optionalField "title" draft.title
    ++ [("options", .list (draft.options.map OptionSpec.datum))]

theorem datum_eq : draft.datum = .table (Fields.ofList draft.members) := rfl

theorem nodup_names_members : (Fields.names draft.members).Nodup := by
  have hsublist : (Fields.names draft.members).Sublist
      (["id", "kind"] ++ ["title"] ++ ["options"]) := by
    simp only [members, Fields.names, List.map_append]
    exact ((List.Sublist.refl _).append (names_optionalField_sublist _ _)).append
      (List.Sublist.refl _)
  exact List.Nodup.sublist hsublist (by decide)

/-- A draft is read back from its document. -/
theorem ofDocument?_datum {depth : Nat} (hdepth : 3 < depth) :
    ofDocument? depth draft.datum.written = some draft := by
  have hget : ∀ name, Fields.get? name (Fields.ofList draft.members) =
      Fields.get? name draft.members := Fields.get?_ofList draft.nodup_names_members
  have hnames : (Fields.names (Fields.ofList draft.members)).Nodup :=
    (Fields.ordered_ofList draft.members).nodup_names
  have hoptions := OptionSpec.listOfJson?_datum draft.options (show 2 < depth - 1 by omega)
  rw [datum_eq, Datum.written]
  simp only [ofDocument?, Json.members?_writtenFields, Option.bind_eq_bind, Option.bind_some,
    Json.only?_written hnames, hget]
  simp only [members, List.cons_append, List.nil_append, Fields.get?_append, Fields.get?,
    ↓reduceIte, String.reduceEq, get?_optionalField, Option.or_none, Option.or_some,
    Option.getD_none, Datum.written, Json.text?, ComponentKind.ofJson?,
    ComponentKind.ofName?_name, hoptions, Option.pure_def, Option.bind_some]
  cases draft with
  | mk id kind title options => cases title <;> rfl

/-- No number occurs in a document. -/
theorem numberless_datum : draft.datum.Numberless := by
  have hoptions : ∀ item ∈ draft.options.map OptionSpec.datum, item.Numberless := by
    simpa using fun spec _ ↦ spec.numberless_datum
  refine numberless_ofList draft.nodup_names_members ?_
  simp only [List.forall_mem_append, List.forall_mem_cons, List.not_mem_nil,
    IsEmpty.forall_iff, implies_true, and_true]
  exact ⟨⟨⟨trivial, trivial⟩, numberless_optionalField _ _⟩,
    Datum.numberlessItems_iff.mpr hoptions⟩

end Draft

/-- Reading the document of a draft gives what building the draft gives. -/
theorem Schema.ofText_datum (draft : Draft) : ofText draft.datum.json = draft.build := by
  rw [ofText, Json.parse?_json draft.numberless_datum, Option.bind_some,
    draft.ofDocument?_datum (by decide)]

/-- A schema that was built from a draft is read back from the text of its document: with the same
id, category, title and options in the same order, and so with the same document. -/
theorem Schema.ofText_document {draft : Draft} {schema : Schema}
    (hbuild : draft.build = .ok schema) :
    schema.toDraft = draft ∧ Schema.ofText schema.toDraft.datum.json = .ok schema := by
  have hdraft := Draft.build_eq_ok_iff.mp hbuild
  exact ⟨hdraft, by rw [Schema.ofText_datum, hdraft, hbuild]⟩

/-- A draft with options of several kinds, each with some of its members. -/
def Draft.invoices : Draft where
  id := "invoices"
  kind := .dataFormat
  title := some "Invoices \"v2\""
  options := [
    { name := "format", kind := .enum ["json", "avro"], fallback := some "avro" },
    { name := "client", kind := .object "HttpClient", autowired := true },
    { name := "typeName", kind := .string, required := true, description := some "C:\\types" },
    { name := "accessToken", kind := .string, secret := true, deprecated := true }]

theorem Schema.ofText_document_invoices : ∃ schema, Draft.invoices.build = .ok schema ∧
    schema.toDraft = Draft.invoices ∧ Schema.ofText schema.toDraft.datum.json = .ok schema := by
  let schema : Schema := { toDraft := Draft.invoices, indexed := by decide +kernel }
  have hbuild : Draft.invoices.build = .ok schema := Draft.build_eq_ok_iff.mpr rfl
  exact ⟨_, hbuild, Schema.ofText_document hbuild⟩

end Connectors
