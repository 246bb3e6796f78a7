import Connectors.Proofs.Schema.Documents
import Connectors.Proofs.Traversal
import Connectors.Schema.Catalog
import Mathlib.Data.List.Perm.Basic
import Mathlib.Data.Set.List

/-!
# What a catalog lists

A catalog lists schemas when each of its sections holds, in the order of the ids, exactly those of
its category, each under its id as declared (`Catalog.Lists`). Ids that differ keep their schemas
apart, so a catalog that is filled with such schemas lists all of them (`Catalog.lists_insertAll`).

A catalog that lists schemas has as many entries as there are schemas (`Catalog.Lists.size_eq`), has
exactly these ids for names (`Catalog.Lists.names_perm`), and gives the schemas back when it is
asked for them, none of which is refused (`Catalog.Lists.schemas_perm`).

Whatever an ordered catalog holds is read back from the text of its document
(`Catalog.ofText_datum`). The entries are documents of schemas, which were shown to be read back
before.
-/

set_option autoImplicit false
set_option relaxedAutoImplicit false

namespace Connectors

theorem Schema.toDraft_injective : Function.Injective Schema.toDraft := by
  rintro ⟨draft, index, hindexed⟩ ⟨_, _, hother⟩ rfl
  obtain rfl := Except.ok.inj (hindexed.symm.trans hother)
  rfl

/-- Every schema is of one category, so the categories share the schemas out among themselves. -/
theorem ComponentKind.flatMap_filter_perm (schemas : List Schema) :
    (all.flatMap fun kind ↦ schemas.filter (·.kind = kind)).Perm schemas := by
  induction schemas with
  | nil => rfl
  | cons schema rest ih =>
    refine List.Perm.trans ?_ (ih.cons schema)
    have hinsert : ∀ before after : List Schema,
        (before ++ schema :: after).Perm (schema :: (before ++ after)) := fun _ _ ↦ List.perm_middle
    simp only [all, List.flatMap_cons, List.flatMap_nil, List.append_nil, List.filter_cons]
    cases hkind : schema.kind with
    | component => simp
    | dataFormat => simp
    | language => simpa using hinsert (_ ++ _) _
    | other => simpa using hinsert (_ ++ _ ++ _) _

namespace Catalog

variable {catalog : Catalog} {schemas : List Schema} {schema : Schema}

/-! ### Sections -/

/-- Adding a schema changes the section of its category only. -/
theorem sectionOf_insert (catalog : Catalog) (schema : Schema) (kind : ComponentKind) :
    (catalog.insert schema).sectionOf kind =
      if schema.kind = kind then Fields.put schema.id schema.toDraft (catalog.sectionOf kind)
      else catalog.sectionOf kind := by
  unfold insert
  cases hkind : schema.kind <;> cases kind <;> simp [sectionOf]

/-- The catalog holds the schemas and nothing else, each in the section of its category and under
its id as declared. -/
structure Lists (catalog : Catalog) (schemas : List Schema) : Prop where
  /-- The sections are in order. -/
  ordered : ∀ kind, Fields.Ordered (catalog.sectionOf kind)
  /-- Each section holds the schemas of its category. -/
  entries : ∀ kind, (catalog.sectionOf kind).Perm
    ((schemas.filter (·.kind = kind)).map fun schema ↦ (schema.id, schema.toDraft))

theorem lists_empty : Lists {} [] where
  ordered kind := by cases kind <;> exact List.Pairwise.nil
  entries kind := by cases kind <;> rfl

/-- The names of a section are the ids of the schemas of its category. -/
theorem Lists.names_perm (hlists : catalog.Lists schemas) (kind : ComponentKind) :
    (catalog.names kind).Perm ((schemas.filter (·.kind = kind)).map (·.id)) := by
  have hnames := (hlists.entries kind).map (·.1)
  rwa [List.map_map] at hnames

/-- A schema with a new id is added to those listed. -/
theorem Lists.insert (hlists : catalog.Lists schemas) (hnew : schema.id ∉ schemas.map (·.id)) :
    (catalog.insert schema).Lists (schemas ++ [schema]) where
  ordered kind := by
    rw [sectionOf_insert]
    split_ifs
    · exact Fields.ordered_put (hlists.ordered kind)
    · exact hlists.ordered kind
  entries kind := by
    rw [sectionOf_insert, List.filter_append, List.map_append]
    by_cases hkind : schema.kind = kind
    · have hname : schema.id ∉ Fields.names (catalog.sectionOf kind) := fun hmem ↦
        hnew ((List.filter_sublist.map _).subset ((hlists.names_perm kind).mem_iff.mp hmem))
      rw [if_pos hkind, List.filter_cons_of_pos (by simpa using hkind)]
      refine (Fields.put_perm hname).trans (((hlists.entries kind).cons _).trans ?_)
      exact (List.perm_append_singleton _ _).symm
    · rw [if_neg hkind, List.filter_cons_of_neg (by simpa using hkind)]
      simpa using hlists.entries kind

/-- Schemas with different ids are all listed once they are added. -/
theorem lists_insertAll {added : List Schema} (hlists : catalog.Lists schemas)
    (hids : ((schemas ++ added).map (·.id)).Nodup) :
    (added.foldl Catalog.insert catalog).Lists (schemas ++ added) := by
  induction added generalizing catalog schemas with
  | nil => simpa using hlists
  | cons schema rest ih =>
    have hnew : schema.id ∉ schemas.map (·.id) := by
      rw [List.map_append, List.map_cons] at hids
      exact fun hmem ↦ List.disjoint_of_nodup_append hids hmem List.mem_cons_self
    rw [← List.singleton_append, ← List.append_assoc] at hids ⊢
    exact ih (hlists.insert hnew) hids

/-! ### Entries -/

theorem size_eq_length_drafts (catalog : Catalog) : catalog.size = catalog.drafts.length := by
  simp only [size, drafts, ComponentKind.all, List.flatMap_cons, List.flatMap_nil,
    List.length_append, List.length_map, Fields.values, sectionOf, List.length_nil]
  omega

/-- The entries are the drafts of the schemas: the section that a schema stands in is that of its
category, which therefore stays as it is. -/
theorem Lists.drafts_perm (hlists : catalog.Lists schemas) :
    catalog.drafts.Perm (schemas.map (·.toDraft)) := by
  have hsection : ∀ kind ∈ ComponentKind.all,
      ((Fields.values (catalog.sectionOf kind)).map fun draft ↦ { draft with kind }).Perm
        ((schemas.filter (·.kind = kind)).map (·.toDraft)) := by
    intro kind _
    have hvalues := (hlists.entries kind).map fun entry ↦ { entry.2 with kind }
    rw [List.map_map] at hvalues
    have hkept : (schemas.filter (·.kind = kind)).map (·.toDraft) =
        (schemas.filter (·.kind = kind)).map fun schema ↦ { schema.toDraft with kind } := by
      refine List.map_congr_left fun schema hschema ↦ ?_
      have hkind : schema.kind = kind := by simpa using (List.mem_filter.mp hschema).2
      rw [← hkind]
    rw [hkept, Fields.values, List.map_map]
    exact hvalues
  refine (List.Perm.flatMap_left _ hsection).trans ?_
  rw [← List.map_flatMap]
  exact (ComponentKind.flatMap_filter_perm schemas).map _

theorem Lists.size_eq (hlists : catalog.Lists schemas) : catalog.size = schemas.length := by
  rw [size_eq_length_drafts, hlists.drafts_perm.length_eq, List.length_map]

/-- The drafts of schemas are built without an error. -/
theorem mapM_build (schemas : List Schema) :
    (schemas.map (·.toDraft)).mapM Draft.build = .ok schemas := by
  rw [Traversal.mapM_eq_ok_iff, List.forall₂_map_left_iff]
  exact List.forall₂_same.mpr fun schema _ ↦ Draft.build_eq_ok_iff.mpr rfl

/-- Asked for its schemas, the catalog gives those it lists. -/
theorem Lists.schemas_perm (hlists : catalog.Lists schemas) :
    ∃ given, catalog.schemas = .ok given ∧ given.Perm schemas := by
  have hdrafts := hlists.drafts_perm
  have hbuilt : ∀ draft ∈ catalog.drafts, ∃ schema : Schema, schema.toDraft = draft := by
    intro draft hdraft
    obtain ⟨schema, -, hschema⟩ := List.mem_map.mp (hdrafts.mem_iff.mp hdraft)
    exact ⟨schema, hschema⟩
  have hrange : catalog.drafts ∈ Set.range (List.map Schema.toDraft) := by
    rw [Set.range_list_map]
    exact hbuilt
  obtain ⟨given, hgiven⟩ := hrange
  rw [← hgiven, List.map_perm_map_iff Schema.toDraft_injective] at hdrafts
  exact ⟨given, by rw [Catalog.schemas, ← hgiven, mapM_build], hdrafts⟩

/-! ### Documents -/

theorem numberless_sectionDatum (entries : Fields Draft) : (sectionDatum entries).Numberless := by
  refine Datum.numberlessFields_iff.mpr fun field hfield ↦ ?_
  obtain ⟨⟨id, draft⟩, -, rfl⟩ := List.mem_map.mp hfield
  exact draft.numberless_datum

/-- The entries of a section are read back one by one. -/
theorem mapM_ofDocument? (entries : Fields Draft) {depth : Nat} (hdepth : 3 < depth) :
    ((Json.writtenMembers (entries.map fun (id, draft) ↦ (id, draft.datum))).mapM fun (id, value) ↦
      (Draft.ofDocument? depth value).map fun draft ↦ (id, draft)) = some entries := by
  induction entries with
  | nil => rfl
  | cons entry rest ih =>
    obtain ⟨id, draft⟩ := entry
    rw [Json.writtenMembers] at ih ⊢
    rw [List.map_cons, List.map_cons, List.mapM_cons, ih]
    simp [draft.ofDocument?_datum hdepth]

/-- A section in order is read back from its document. -/
theorem sectionOfJson?_datum {entries : Fields Draft}
    (hordered : Fields.Ordered entries) {depth : Nat} (hdepth : 4 < depth) :
    sectionOfJson? depth (sectionDatum entries).written = some entries := by
  have hread := mapM_ofDocument? entries (show 3 < depth - 1 by omega)
  rw [sectionDatum, Datum.written, sectionOfJson?, Json.members?_writtenFields]
  simp only [Option.bind_eq_bind, Option.bind_some, hread, hordered.ofList_eq,
    Option.pure_def]

/-- The members of a catalog. -/
def fields (catalog : Catalog) : List (String × Datum) :=
  sectionNames.zip (ComponentKind.all.map fun kind ↦ sectionDatum (catalog.sectionOf kind))

theorem datum_eq (catalog : Catalog) : catalog.datum = .table catalog.fields := rfl

/-- A catalog whose sections are in order is read back from the text of its document. -/
theorem ofText_datum (hordered : ∀ kind, Fields.Ordered (catalog.sectionOf kind)) :
    ofText catalog.datum.json = .ok catalog := by
  have hnumberless : catalog.datum.Numberless :=
    ⟨numberless_sectionDatum _, numberless_sectionDatum _, numberless_sectionDatum _,
      numberless_sectionDatum _, trivial⟩
  have hread : ∀ kind, sectionOfJson? (Json.depthLimit - 1)
      (sectionDatum (catalog.sectionOf kind)).written = some (catalog.sectionOf kind) :=
    fun kind ↦ sectionOfJson?_datum (hordered kind) (by decide)
  have hcatalog : ofJson? catalog.datum.written = some catalog := by
    have hnames : (Fields.names catalog.fields).Nodup := show sectionNames.Nodup by decide
    rw [datum_eq, Datum.written]
    simp only [ofJson?, Json.members?_writtenFields, Option.bind_eq_bind, Option.bind_some,
      Json.only?_written hnames]
    simp only [fields, sectionNames, ComponentKind.all, List.map_cons, List.map_nil,
      List.zip_cons_cons, List.zip_nil_right, Fields.get?, ↓reduceIte, String.reduceEq, hread,
      Option.bind_some]
    rfl
  rw [ofText, Json.parse?_json hnumberless, Option.bind_some, hcatalog]

end Catalog

end Connectors
