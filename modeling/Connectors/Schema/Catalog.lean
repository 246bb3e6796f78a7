import Connectors.Schema.Document

/-!
# Catalogs

A catalog lists schema documents by category and, within a category, by id (`Catalog`). Its entries
are drafts: they are checked when the catalog is asked for schemas (`Catalog.schemas`), and the
section an entry stands in decides its category, whatever the entry says.

`Catalog.datum` and `Catalog.ofText` are its JSON form.
-/

set_option autoImplicit false
set_option relaxedAutoImplicit false

namespace Connectors

/-- Schema documents, by category and id. -/
structure Catalog where
  /-- The connectors. -/
  components : Fields Draft := []
  /-- The data formats. -/
  dataFormats : Fields Draft := []
  /-- The expression languages. -/
  languages : Fields Draft := []
  /-- Everything else. -/
  others : Fields Draft := []
deriving DecidableEq, Repr

namespace Catalog

/-- The entries of a category. -/
def sectionOf (catalog : Catalog) : ComponentKind → Fields Draft
  | .component => catalog.components
  | .dataFormat => catalog.dataFormats
  | .language => catalog.languages
  | .other => catalog.others

/-- Adds a schema under its category, in place of an entry of the same id. -/
def insert (catalog : Catalog) (schema : Schema) : Catalog :=
  let entries := Fields.put schema.id schema.toDraft (catalog.sectionOf schema.kind)
  match schema.kind with
  | .component => { catalog with components := entries }
  | .dataFormat => { catalog with dataFormats := entries }
  | .language => { catalog with languages := entries }
  | .other => { catalog with others := entries }

/-- The ids of a category, in order. -/
def names (catalog : Catalog) (kind : ComponentKind) : List String :=
  Fields.names (catalog.sectionOf kind)

/-- How many entries a catalog has. -/
def size (catalog : Catalog) : Nat :=
  catalog.components.length + catalog.dataFormats.length + catalog.languages.length
    + catalog.others.length

/-- The entries of all categories, each with the category it stands under. -/
def drafts (catalog : Catalog) : List Draft :=
  ComponentKind.all.flatMap fun kind ↦
    (Fields.values (catalog.sectionOf kind)).map fun draft ↦ { draft with kind }

/-- The schemas of a catalog. The first entry at fault is reported. -/
def schemas (catalog : Catalog) : Except SchemaError (List Schema) :=
  catalog.drafts.mapM Draft.build

/-- The names of the sections in a document, in order. -/
def sectionNames : List String := ["components", "dataformats", "languages", "others"]

/-- The JSON form of a section. -/
def sectionDatum (entries : Fields Draft) : Datum :=
  .table (entries.map fun (id, draft) ↦ (id, draft.datum))

/-- The JSON form of a catalog. -/
def datum (catalog : Catalog) : Datum :=
  .table [("components", sectionDatum catalog.components),
    ("dataformats", sectionDatum catalog.dataFormats),
    ("languages", sectionDatum catalog.languages), ("others", sectionDatum catalog.others)]

/-- Reads a section, which may nest no deeper than `depth`. -/
def sectionOfJson? (depth : Nat) : Json → Option (Fields Draft)
  | .object written => do
    let members ← Json.members? written
    let entries ← members.mapM fun (id, value) ↦
      (Draft.ofDocument? (depth - 1) value).map fun draft ↦ (id, draft)
    return Fields.ofList entries
  | _ => none

/-- Reads a catalog: an object, or an array of its sections in order. -/
def ofJson? : Json → Option Catalog
  | .object written => do
    let members ← Json.members? written
    let read (name : String) : Option (Fields Draft) :=
      Json.only? members name (some []) (sectionOfJson? (Json.depthLimit - 1))
    return ⟨← read "components", ← read "dataformats", ← read "languages", ← read "others"⟩
  | .array items => do
    let read (position : Nat) : Option (Fields Draft) :=
      Json.item? items position (some []) (sectionOfJson? (Json.depthLimit - 1))
    let catalog : Catalog := ⟨← read 0, ← read 1, ← read 2, ← read 3⟩
    if items.length ≤ 4 then return catalog else none
  | _ => none

/-- Reads a catalog document. -/
def ofText (text : String) : Except SchemaError Catalog :=
  match (Json.parse? text).bind ofJson? with
  | some catalog => .ok catalog
  | none => .error .invalidDocument

end Catalog

end Connectors
