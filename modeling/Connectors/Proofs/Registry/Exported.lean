import Connectors.Proofs.Schema.Catalogs
import Connectors.Registry

/-!
# The catalog of a registry

A registry files its components under the normal forms of their ids, its catalog under the ids as
declared. A component is only registered if its normal form is new (`Registry.register_eq_ok_iff`),
so the registry holds each of the schemas given to it once (`Registry.BuiltFrom.entries_perm`), and
no two of them have one id. Hence no entry of the catalog takes the place of another one: the
catalog lists exactly the schemas that were registered (`Registry.BuiltFrom.lists_catalog`), and
they are all read back from the text of its document (`Registry.catalog_read_back`).
-/

set_option autoImplicit false
set_option relaxedAutoImplicit false

namespace Connectors.Registry

variable {φ : Type} {given : List Schema} {registry next : Registry φ}
  {schema : Schema} {factory : φ}

/-- The registries that are built by registering the schemas given, one after another. Between two
of them it may be settled how components are bound and how long they may take. -/
inductive BuiltFrom : List Schema → Registry φ → Prop
  /-- Nothing is registered. -/
  | empty : BuiltFrom [] {}
  /-- One schema more is registered. -/
  | register {given : List Schema} {registry next : Registry φ} {schema : Schema} {factory : φ}
      (hbuilt : BuiltFrom given registry)
      (hregister : registry.register schema factory = .ok next) :
      BuiltFrom (given ++ [schema]) next
  /-- Nothing is registered, but something else is settled. -/
  | settle {given : List Schema} {registry : Registry φ} (hbuilt : BuiltFrom given registry)
      (binder : Binder) (timeout : Option Nat) : BuiltFrom given { registry with binder, timeout }

theorem register_eq_ok_iff : registry.register schema factory = .ok next ↔
    Key.normal schema.id ∉ Fields.names registry.entries ∧
      next = { registry with
        entries := Fields.put (Key.normal schema.id) ⟨schema, factory⟩ registry.entries } := by
  rw [← Fields.get?_eq_none_iff, Registry.register, contains, entry?]
  cases Fields.get? (Key.normal schema.id) registry.entries <;> simp [eq_comm]

theorem BuiltFrom.ordered (hbuilt : registry.BuiltFrom given) :
    Fields.Ordered registry.entries := by
  induction hbuilt with
  | empty => exact List.Pairwise.nil
  | register _ hregister ih =>
    obtain ⟨-, rfl⟩ := register_eq_ok_iff.mp hregister
    exact Fields.ordered_put ih
  | settle _ _ _ ih => exact ih

/-- The registry holds the schemas given to it, each under the normal form of its id. -/
theorem BuiltFrom.entries_perm (hbuilt : registry.BuiltFrom given) :
    (registry.entries.map fun entry ↦ (entry.1, entry.2.schema)).Perm
      (given.map fun schema ↦ (Key.normal schema.id, schema)) := by
  induction hbuilt with
  | empty => rfl
  | register _ hregister ih =>
    obtain ⟨hnew, rfl⟩ := register_eq_ok_iff.mp hregister
    rw [List.map_append]
    refine ((Fields.put_perm hnew).map _).trans ((ih.cons _).trans ?_)
    exact (List.perm_append_singleton _ _).symm
  | settle _ _ _ ih => exact ih

theorem BuiltFrom.schemas_perm (hbuilt : registry.BuiltFrom given) :
    registry.schemas.Perm given := by
  have hschemas := hbuilt.entries_perm.map (·.2)
  rw [List.map_map, List.map_map] at hschemas
  simpa [schemas, Fields.values, Function.comp_def] using hschemas

/-- No two schemas of a registry have one id, since no two have one normal form of it. -/
theorem BuiltFrom.nodup_ids (hbuilt : registry.BuiltFrom given) : (given.map (·.id)).Nodup := by
  have hforms : (given.map fun schema ↦ Key.normal schema.id).Nodup := by
    have hnames := hbuilt.entries_perm.map (·.1)
    rw [List.map_map, List.map_map] at hnames
    exact hnames.nodup_iff.mp hbuilt.ordered.nodup_names
  refine List.Nodup.of_map Key.normal ?_
  rwa [List.map_map]

/-- The catalog of a registry lists the schemas that were given to the registry. -/
theorem BuiltFrom.lists_catalog (hbuilt : registry.BuiltFrom given) :
    registry.catalog.Lists registry.schemas := by
  have hids : (registry.schemas.map (·.id)).Nodup :=
    (hbuilt.schemas_perm.map _).nodup_iff.mpr hbuilt.nodup_ids
  exact Catalog.lists_insertAll Catalog.lists_empty hids

/-- Exporting the catalog of a registry loses nothing. The catalog has an entry for each component,
and from the text of its document it is read as a catalog that gives exactly the schemas that were
registered, all of them accepted, and whose names of each category are those of the registry. -/
theorem catalog_read_back (hbuilt : registry.BuiltFrom given) :
    registry.catalog.size = registry.size ∧ registry.size = given.length ∧
      ∃ reloaded, Catalog.ofText registry.catalog.datum.json = .ok reloaded ∧
        (∃ schemas, reloaded.schemas = .ok schemas ∧ schemas.Perm given) ∧
        ∀ kind, (reloaded.names kind).Perm (registry.names kind) := by
  have hlists := hbuilt.lists_catalog
  have hsize : registry.schemas.length = registry.size := by
    simp [schemas, Fields.values, size]
  obtain ⟨read, hread, hperm⟩ := hlists.schemas_perm
  refine ⟨hlists.size_eq.trans hsize, ?_, registry.catalog, Catalog.ofText_datum hlists.ordered,
    ⟨read, hread, hperm.trans hbuilt.schemas_perm⟩, hlists.names_perm⟩
  rw [← hsize, hbuilt.schemas_perm.length_eq]

/-- The format that a document has in `Draft.invoices`. -/
def invoices : Schema where
  toDraft := Draft.invoices
  indexed := by decide +kernel

/-- A format whose id comes before `invoices`, and whose normal form comes after it. -/
def orders : Schema where
  id := "Orders"
  kind := .dataFormat
  options := [{ name := "separator", kind := .string }]
  indexed := by decide

/-- A connector whose id has another normal form. -/
def orders2 : Schema where
  id := "orders-2"
  options := [{ name := "queue", kind := .string, required := true }]
  indexed := by decide

/-- Two formats and a connector are registered, and the reloaded catalog lists them. -/
theorem catalog_read_back_formats : ∃ registry : Registry Unit,
    registry.BuiltFrom [orders2, invoices, orders] ∧ registry.catalog.size = 3 ∧
      registry.names .dataFormat = ["invoices", "Orders"] ∧
      ∃ reloaded, Catalog.ofText registry.catalog.datum.json = .ok reloaded ∧
        (∃ schemas, reloaded.schemas = .ok schemas ∧ schemas.Perm [orders2, invoices, orders]) ∧
        (reloaded.names .dataFormat).Perm ["invoices", "Orders"] := by
  have hfirst : ({} : Registry Unit).register orders2 () =
      .ok { entries := [("orders2", ⟨orders2, ()⟩)] } := rfl
  have hsecond : Registry.register { entries := [("orders2", ⟨orders2, ()⟩)] } invoices () =
      .ok { entries := [("invoices", ⟨invoices, ()⟩), ("orders2", ⟨orders2, ()⟩)] } := rfl
  have hthird : Registry.register
      { entries := [("invoices", ⟨invoices, ()⟩), ("orders2", ⟨orders2, ()⟩)] } orders () =
      .ok { entries := [("invoices", ⟨invoices, ()⟩), ("orders", ⟨orders, ()⟩),
        ("orders2", ⟨orders2, ()⟩)] } := rfl
  have hbuilt := ((BuiltFrom.empty.register hfirst).register hsecond).register hthird
  obtain ⟨hsize, hlength, reloaded, hread, hschemas, hnames⟩ := catalog_read_back hbuilt
  exact ⟨_, hbuilt, hsize.trans hlength, rfl, reloaded, hread, hschemas, hnames .dataFormat⟩

end Connectors.Registry
