import Connectors.Proofs.Sections.Leaves
import Connectors.Proofs.Sections.Overlay

/-!
# Values at the end of a route

A route is the list of names that lead from a table through tables below it. Where the tables of a
datum have their names in order (`Datum.Orderly`), each of its leaves stands at the end of one route
and is the value found there (`Datum.mem_routes_iff`, `Datum.nodup_routes`). Leaves with different
routes may have one path, since a name can hold points itself.

Putting one datum over another keeps their order and brings no leaf that neither of them has
(`Datum.mem_routes_overlay`). A route on which both have only tables, as far as it leads, and a leaf
at its end (`Datum.Fits`) has the later value at its end, or else the earlier one
(`Datum.fits_overlay`).
-/

set_option autoImplicit false
set_option relaxedAutoImplicit false

namespace Connectors

open Spelling

namespace Datum

/-! ### Tables in order -/

mutual

/-- The names of each table are in order, at any depth. -/
def Orderly : Datum → Prop
  | .table fields => Fields.Ordered fields ∧ OrderlyFields fields
  | _ => True

/-- The values of fields are orderly. -/
def OrderlyFields : List (String × Datum) → Prop
  | [] => True
  | (_, value) :: rest => Orderly value ∧ OrderlyFields rest

end

mutual

/-- Whether data are orderly is decided table by table. -/
def decOrderly : (value : Datum) → Decidable value.Orderly
  | .table fields =>
    have := decOrderlyFields fields
    inferInstanceAs (Decidable (List.Pairwise (·.1 < ·.1) fields ∧ OrderlyFields fields))
  | .null | .bool _ | .int _ | .float _ | .text _ | .list _ => isTrue trivial

/-- Whether fields are orderly is decided one by one. -/
def decOrderlyFields : (fields : List (String × Datum)) → Decidable (OrderlyFields fields)
  | [] => isTrue trivial
  | (_, value) :: rest =>
    have := decOrderly value
    have := decOrderlyFields rest
    inferInstanceAs (Decidable (Orderly value ∧ OrderlyFields rest))

end

instance (value : Datum) : Decidable value.Orderly := decOrderly value

theorem orderlyFields_iff {fields : List (String × Datum)} :
    OrderlyFields fields ↔ ∀ field ∈ fields, field.2.Orderly := by
  induction fields with
  | nil => simp [OrderlyFields]
  | cons field rest ih => rw [OrderlyFields, ih, List.forall_mem_cons]

theorem orderly_table_iff {fields : List (String × Datum)} : (Datum.table fields).Orderly ↔
    Fields.Ordered fields ∧ ∀ field ∈ fields, field.2.Orderly := by
  rw [Orderly, orderlyFields_iff]

/-- What is found in an orderly table is orderly. -/
theorem orderly_of_get? {fields : List (String × Datum)} (horderly : (Datum.table fields).Orderly)
    {name : String} {value : Datum} (hget : Fields.get? name fields = some value) : value.Orderly :=
  (orderly_table_iff.mp horderly).2 (name, value) (Fields.mem_of_get?_eq_some hget)

mutual

theorem orderly_overlay (earlier : Datum) (later : Datum) (hearlier : earlier.Orderly)
    (hlater : later.Orderly) : (overlay earlier later).Orderly := by
  match later with
  | .table fields =>
    cases earlier with
    | table held =>
      rw [overlay]
      obtain ⟨-, hfields⟩ := orderly_table_iff.mp hlater
      exact orderly_overlayFields held fields hearlier hfields
    | _ => simpa [overlay] using hlater
  | .null | .bool _ | .int _ | .float _ | .text _ | .list _ => simpa [overlay] using hlater

theorem orderly_overlayFields (earlier later : List (String × Datum))
    (hearlier : (Datum.table earlier).Orderly) (hlater : ∀ field ∈ later, field.2.Orderly) :
    (Datum.table (overlayFields earlier later)).Orderly := by
  match later with
  | [] =>
    rw [overlayFields]
    exact hearlier
  | (name, value) :: rest =>
    obtain ⟨hvalue, hrest⟩ := List.forall_mem_cons.mp hlater
    obtain ⟨hordered, hfields⟩ := orderly_table_iff.mp hearlier
    have hunited : (united (Fields.get? name earlier) value).Orderly := by
      cases hget : Fields.get? name earlier with
      | none => exact hvalue
      | some held => exact orderly_overlay held value (orderly_of_get? hearlier hget) hvalue
    rw [overlayFields_cons]
    refine orderly_overlayFields _ rest
      (orderly_table_iff.mpr ⟨Fields.ordered_put hordered, ?_⟩) hrest
    intro field hfield
    rcases (Fields.mem_put_iff hordered).mp hfield with rfl | ⟨-, hfield⟩
    · exact hunited
    · exact hfields field hfield

end

/-! ### Leaves by their routes -/

mutual

/-- The values in a datum that are no tables, each with the names that lead to it. -/
def routes : Datum → List (List String × Datum)
  | .table fields => fieldRoutes fields
  | value => [([], value)]

/-- The values in fields that are no tables, each with the names that lead to it. -/
def fieldRoutes : List (String × Datum) → List (List String × Datum)
  | [] => []
  | (name, value) :: rest =>
    (routes value).map (fun (route, leaf) ↦ (name :: route, leaf)) ++ fieldRoutes rest

end

/-- The path that a route is below a path. -/
def pathAlong (path : String) (route : List String) : String :=
  route.foldl pathTo path

theorem routes_of_isLeaf {value : Datum} (hleaf : value.IsLeaf) : routes value = [([], value)] := by
  cases value with
  | table fields => exact absurd rfl (hleaf fields)
  | _ => rfl

mutual

/-- The leaves of a value by their paths are those by their routes. -/
theorem leaves_eq (path : String) (value : Datum) :
    leaves path value = (routes value).map fun (route, leaf) ↦ (pathAlong path route, leaf) := by
  by_cases htable : ∃ fields, value = .table fields
  · obtain ⟨fields, rfl⟩ := htable
    rw [leaves, routes]
    exact fieldLeaves_eq path fields
  · have hleaf : value.IsLeaf := not_exists.mp htable
    rw [leaves_of_isLeaf hleaf, routes_of_isLeaf hleaf]
    rfl

theorem fieldLeaves_eq (path : String) (fields : List (String × Datum)) : fieldLeaves path fields =
    (fieldRoutes fields).map fun (route, leaf) ↦ (pathAlong path route, leaf) := by
  match fields with
  | [] => rfl
  | (name, value) :: rest =>
    rw [fieldLeaves, fieldRoutes, List.map_append, List.map_map, leaves_eq (pathTo path name) value,
      fieldLeaves_eq path rest]
    rfl

end

/-- The value at the end of a route. -/
def at? : List String → Datum → Option Datum
  | [], value => some value
  | name :: route, .table fields => (Fields.get? name fields).bind (at? route)
  | _ :: _, _ => none

mutual

/-- The leaves of a datum are the values at the ends of its routes that are no tables. -/
theorem mem_routes_iff {value leaf : Datum} (horderly : value.Orderly) (route : List String) :
    (route, leaf) ∈ routes value ↔ at? route value = some leaf ∧ leaf.IsLeaf := by
  by_cases htable : ∃ fields, value = .table fields
  · obtain ⟨fields, rfl⟩ := htable
    rw [routes]
    obtain ⟨hordered, hfields⟩ := orderly_table_iff.mp horderly
    cases route with
    | nil =>
      refine ⟨fun hmem ↦ ?_, fun ⟨hat, hleaf⟩ ↦ ?_⟩
      · exact absurd hmem (nil_notMem_fieldRoutes fields leaf)
      · exact absurd (Option.some.inj hat).symm (hleaf fields)
    | cons name route =>
      rw [mem_fieldRoutes_iff hfields name route, at?]
      constructor
      · rintro ⟨held, hmem, hat, hleaf⟩
        rw [(Fields.get?_eq_some_iff hordered.nodup_names).mpr hmem]
        exact ⟨hat, hleaf⟩
      · rintro ⟨hat, hleaf⟩
        obtain ⟨held, hget, hat⟩ := Option.bind_eq_some_iff.mp hat
        exact ⟨held, Fields.mem_of_get?_eq_some hget, hat, hleaf⟩
  · have hisLeaf : value.IsLeaf := not_exists.mp htable
    rw [routes_of_isLeaf hisLeaf, List.mem_singleton, Prod.mk.injEq]
    cases route with
    | nil =>
      rw [at?, Option.some.injEq]
      exact ⟨fun ⟨_, hvalue⟩ ↦ ⟨hvalue.symm, hvalue ▸ hisLeaf⟩,
        fun ⟨hvalue, _⟩ ↦ ⟨rfl, hvalue.symm⟩⟩
    | cons name route =>
      cases value with
      | table fields => exact absurd rfl (hisLeaf fields)
      | _ => simp [at?]

theorem nil_notMem_fieldRoutes (fields : List (String × Datum)) (leaf : Datum) :
    ([], leaf) ∉ fieldRoutes fields := by
  match fields with
  | [] => simp [fieldRoutes]
  | (name, value) :: rest =>
    rw [fieldRoutes, List.mem_append, not_or]
    exact ⟨by simp, nil_notMem_fieldRoutes rest leaf⟩

theorem mem_fieldRoutes_iff {fields : List (String × Datum)} {leaf : Datum}
    (horderly : ∀ field ∈ fields, field.2.Orderly) (name : String) (route : List String) :
    (name :: route, leaf) ∈ fieldRoutes fields ↔
      ∃ value, (name, value) ∈ fields ∧ at? route value = some leaf ∧ leaf.IsLeaf := by
  match fields with
  | [] => simp [fieldRoutes]
  | (first, value) :: rest =>
    obtain ⟨hvalue, hrest⟩ := List.forall_mem_cons.mp horderly
    have hfirst : (name :: route, leaf) ∈
          (routes value).map (fun (route, leaf) ↦ (first :: route, leaf)) ↔
        first = name ∧ (route, leaf) ∈ routes value := by
      rw [List.mem_map]
      constructor
      · rintro ⟨⟨others, held⟩, hmem, heq⟩
        obtain ⟨hnames, rfl⟩ := Prod.mk.inj heq
        obtain ⟨rfl, rfl⟩ := List.cons.inj hnames
        exact ⟨rfl, hmem⟩
      · rintro ⟨rfl, hmem⟩
        exact ⟨(route, leaf), hmem, rfl⟩
    rw [fieldRoutes, List.mem_append, hfirst, mem_routes_iff hvalue route,
      mem_fieldRoutes_iff hrest name route]
    constructor
    · rintro (⟨rfl, hat⟩ | ⟨held, hmem, hat⟩)
      · exact ⟨value, List.mem_cons_self, hat⟩
      · exact ⟨held, List.mem_cons_of_mem _ hmem, hat⟩
    · rintro ⟨held, hmem, hat⟩
      rcases List.mem_cons.mp hmem with heq | hmem
      · obtain ⟨rfl, rfl⟩ := Prod.mk.inj heq
        exact .inl ⟨rfl, hat⟩
      · exact .inr ⟨held, hmem, hat⟩

end

mutual

/-- No two leaves have one route. -/
theorem nodup_routes {value : Datum} (horderly : value.Orderly) :
    ((routes value).map (·.1)).Nodup := by
  by_cases htable : ∃ fields, value = .table fields
  · obtain ⟨fields, rfl⟩ := htable
    obtain ⟨hordered, hfields⟩ := orderly_table_iff.mp horderly
    rw [routes]
    exact nodup_fieldRoutes hordered.nodup_names hfields
  · have hleaf : value.IsLeaf := not_exists.mp htable
    rw [routes_of_isLeaf hleaf]
    exact List.nodup_singleton _

theorem nodup_fieldRoutes {fields : List (String × Datum)} (hnames : (Fields.names fields).Nodup)
    (horderly : ∀ field ∈ fields, field.2.Orderly) : ((fieldRoutes fields).map (·.1)).Nodup := by
  match fields with
  | [] => simp [fieldRoutes]
  | (name, value) :: rest =>
    obtain ⟨hvalue, hrest⟩ := List.forall_mem_cons.mp horderly
    obtain ⟨hnew, hothers⟩ := List.nodup_cons.mp hnames
    have hfirst : ((routes value).map (fun (route, leaf) ↦ (name :: route, leaf))).map (·.1) =
        ((routes value).map (·.1)).map (name :: ·) := by
      rw [List.map_map, List.map_map]
      rfl
    rw [fieldRoutes, List.map_append, hfirst, List.nodup_append']
    refine ⟨(nodup_routes hvalue).map fun _ _ heq ↦ (List.cons.inj heq).2,
      nodup_fieldRoutes hothers hrest, fun route hroute hother ↦ hnew ?_⟩
    obtain ⟨others, -, rfl⟩ := List.mem_map.mp hroute
    obtain ⟨⟨found, leaf⟩, hleaf, rfl⟩ := List.mem_map.mp hother
    obtain ⟨held, hheld, -⟩ := (mem_fieldRoutes_iff hrest name others).mp hleaf
    exact Fields.mem_names_iff.mpr ⟨held, hheld⟩

end

/-- Where one route leads to a name in any spelling, what stands at its end is all there is for
it. -/
theorem filter_fieldLeaves {route : List String} {fields : List (String × Datum)}
    (horderly : (Datum.table fields).Orderly)
    (hleaf : ∀ leaf, at? route (.table fields) = some leaf → leaf.IsLeaf)
    (honly : ∀ leaf ∈ fieldRoutes fields,
      Key.normal (pathAlong "" leaf.1) = Key.normal (pathAlong "" route) → leaf.1 = route) :
    (fieldLeaves "" fields).filter (fun leaf ↦ Key.agree leaf.1 (pathAlong "" route)) =
      ((at? route (.table fields)).map fun leaf ↦ (pathAlong "" route, leaf)).toList := by
  have hmem : ∀ leaf, leaf ∈ (fieldRoutes fields).filter
        (fun leaf ↦ Key.agree (pathAlong "" leaf.1) (pathAlong "" route)) ↔
      leaf ∈ ((at? route (.table fields)).map fun leaf ↦ (route, leaf)).toList := by
    rintro ⟨names, leaf⟩
    rw [List.mem_filter, Key.agree_iff, Option.mem_toList, Option.map_eq_some_iff]
    constructor
    · rintro ⟨hmem, hname⟩
      obtain rfl : names = route := honly _ hmem hname
      exact ⟨leaf, ((mem_routes_iff horderly names).mp hmem).1, rfl⟩
    · rintro ⟨held, hat, heq⟩
      obtain ⟨rfl, rfl⟩ := Prod.mk.inj heq
      exact ⟨(mem_routes_iff horderly route).mpr ⟨hat, hleaf held hat⟩, rfl⟩
  have hnodup : (fieldRoutes fields).Nodup := (nodup_routes horderly).of_map
  have hroutes : (fieldRoutes fields).filter
        (fun leaf ↦ Key.agree (pathAlong "" leaf.1) (pathAlong "" route)) =
      ((at? route (.table fields)).map fun leaf ↦ (route, leaf)).toList := by
    cases hat : at? route (.table fields) with
    | none => simpa [hat, List.eq_nil_iff_forall_not_mem] using hmem
    | some leaf =>
      rw [hat] at hmem
      have hperm := (List.perm_ext_iff_of_nodup (hnodup.filter _) (List.nodup_singleton _)).mpr hmem
      exact List.perm_singleton.mp hperm
  rw [fieldLeaves_eq, List.filter_map]
  change (List.filter (fun leaf ↦ Key.agree (pathAlong "" leaf.1) (pathAlong "" route))
    (fieldRoutes fields)).map _ = _
  rw [hroutes]
  cases at? route (.table fields) <;> rfl

/-! ### Putting one datum over another -/

/-- The leaves of a datum over another one are leaves of one of them. -/
theorem at?_overlay_cases {route : List String} {earlier later leaf : Datum}
    (hlater : later.Orderly) (hat : at? route (earlier.overlay later) = some leaf)
    (hleaf : leaf.IsLeaf) : at? route later = some leaf ∨ at? route earlier = some leaf := by
  induction route generalizing earlier later with
  | nil =>
    obtain rfl := Option.some.inj hat
    cases later with
    | table fields =>
      cases earlier with
      | table held => exact absurd (overlay_tables held fields) (hleaf _)
      | _ => exact .inl (by simp [at?, overlay])
    | _ => exact .inl (by simp [at?, overlay])
  | cons name route ih =>
    cases later with
    | table fields =>
      cases earlier with
      | table held =>
        have hnames := (orderly_table_iff.mp hlater).1.nodup_names
        rw [overlay_tables, at?, get?_overlayFields hnames] at hat
        rw [at?, at?]
        cases hgiven : Fields.get? name fields with
        | none => exact .inr (by simpa [hgiven] using hat)
        | some value =>
          cases hheld : Fields.get? name held with
          | none => exact .inl (by simpa [hgiven, hheld, united] using hat)
          | some before =>
            have hunited : at? route (before.overlay value) = some leaf := by
              simpa [hgiven, hheld, united] using hat
            exact ih (orderly_of_get? hlater hgiven) hunited
      | _ => exact .inl (by simpa [overlay] using hat)
    | _ => simp [overlay, at?] at hat

theorem mem_routes_overlay {route : List String} {earlier later leaf : Datum}
    (hearlier : earlier.Orderly) (hlater : later.Orderly)
    (hmem : (route, leaf) ∈ routes (earlier.overlay later)) :
    (route, leaf) ∈ routes later ∨ (route, leaf) ∈ routes earlier := by
  rw [mem_routes_iff (orderly_overlay earlier later hearlier hlater)] at hmem
  rw [mem_routes_iff hlater, mem_routes_iff hearlier]
  exact (at?_overlay_cases hlater hmem.1 hmem.2).imp (⟨·, hmem.2⟩) (⟨·, hmem.2⟩)

/-- On a route there are only tables, as far as it leads, and a leaf at its end. -/
def Fits : List String → Datum → Prop
  | [], .table _ => False
  | [], _ => True
  | name :: route, .table fields =>
    match Fields.get? name fields with
    | some value => Fits route value
    | none => True
  | _ :: _, _ => False

/-- Whether a datum fits a route is decided by going along it. -/
def decFits : (route : List String) → (value : Datum) → Decidable (Fits route value)
  | [], .table _ => isFalse not_false
  | [], .null | [], .bool _ | [], .int _ | [], .float _ | [], .text _ | [], .list _ =>
    isTrue trivial
  | name :: route, .table fields =>
    match hget : Fields.get? name fields with
    | some value =>
      match decFits route value with
      | isTrue hfits => isTrue (by simpa [Fits, hget] using hfits)
      | isFalse hfits => isFalse (by simpa [Fits, hget] using hfits)
    | none => isTrue (by simp [Fits, hget])
  | _ :: _, .null | _ :: _, .bool _ | _ :: _, .int _ | _ :: _, .float _ | _ :: _, .text _
  | _ :: _, .list _ => isFalse not_false

instance (route : List String) (value : Datum) : Decidable (Fits route value) := decFits route value

theorem fits_nil_iff {value : Datum} : Fits [] value ↔ value.IsLeaf := by
  cases value <;> simp [Fits, IsLeaf]

theorem fits_cons_iff {name : String} {route : List String} {value : Datum} :
    Fits (name :: route) value ↔ ∃ fields, value = .table fields ∧
      ∀ found, Fields.get? name fields = some found → Fits route found := by
  cases value with
  | table fields =>
    rw [Fits]
    cases hget : Fields.get? name fields <;> simp [hget]
  | _ => simp [Fits]

/-- What stands at the end of a route that a datum fits is a leaf. -/
theorem Fits.isLeaf_of_at? {route : List String} {value leaf : Datum} (hfits : Fits route value)
    (hat : at? route value = some leaf) : leaf.IsLeaf := by
  induction route generalizing value with
  | nil =>
    obtain rfl := Option.some.inj hat
    exact fits_nil_iff.mp hfits
  | cons name route ih =>
    obtain ⟨fields, rfl, hfound⟩ := fits_cons_iff.mp hfits
    obtain ⟨found, hget, hat⟩ := Option.bind_eq_some_iff.mp hat
    exact ih (hfound found hget) hat

/-- A datum fits the routes of its leaves. -/
theorem fits_of_at? {route : List String} {value leaf : Datum} (hat : at? route value = some leaf)
    (hleaf : leaf.IsLeaf) : Fits route value := by
  induction route generalizing value with
  | nil =>
    obtain rfl := Option.some.inj hat
    exact fits_nil_iff.mpr hleaf
  | cons name route ih =>
    cases value with
    | table fields =>
      refine fits_cons_iff.mpr ⟨fields, rfl, fun found hget ↦ ih ?_⟩
      rwa [at?, hget] at hat
    | _ => simp [at?] at hat

/-- At the end of a route that a datum fits stands its own value, over whatever it is put, and the
earlier value if it has none. -/
theorem at?_overlay_of_fits {route : List String} {earlier later : Datum} (hlater : later.Orderly)
    (hfits : Fits route later) :
    at? route (earlier.overlay later) = (at? route later).or (at? route earlier) := by
  induction route generalizing earlier later with
  | nil =>
    rw [overlay_of_isLeaf (fits_nil_iff.mp hfits)]
    rfl
  | cons name route ih =>
    obtain ⟨given, rfl, hgiven⟩ := fits_cons_iff.mp hfits
    cases earlier with
    | table held =>
      have hnames := (orderly_table_iff.mp hlater).1.nodup_names
      rw [overlay_tables, at?, at?, at?, get?_overlayFields hnames]
      cases hsome : Fields.get? name given with
      | none => simp
      | some value =>
        cases hbefore : Fields.get? name held with
        | none => simp [united]
        | some before => exact ih (orderly_of_get? hlater hsome) (hgiven value hsome)
    | _ => simp [overlay, at?]

/-- Where two data fit a route, so does the one over the other, with the later value at its end. -/
theorem fits_overlay {route : List String} {earlier later : Datum} (hlater : later.Orderly)
    (hfirst : Fits route earlier) (hsecond : Fits route later) :
    Fits route (earlier.overlay later) ∧
      at? route (earlier.overlay later) = (at? route later).or (at? route earlier) := by
  refine ⟨?_, at?_overlay_of_fits hlater hsecond⟩
  induction route generalizing earlier later with
  | nil =>
    rw [overlay_of_isLeaf (fits_nil_iff.mp hsecond)]
    exact hsecond
  | cons name route ih =>
    obtain ⟨held, rfl, hheld⟩ := fits_cons_iff.mp hfirst
    obtain ⟨given, rfl, hgiven⟩ := fits_cons_iff.mp hsecond
    have hnames := (orderly_table_iff.mp hlater).1.nodup_names
    rw [overlay_tables, fits_cons_iff]
    simp only [get?_overlayFields hnames, table.injEq, exists_eq_left']
    cases hsome : Fields.get? name given with
    | none => exact hheld
    | some value =>
      cases hbefore : Fields.get? name held with
      | none => simpa [united] using hgiven value hsome
      | some before =>
        simpa [united] using ih (orderly_of_get? hlater hsome) (hheld before hbefore)
          (hgiven value hsome)

end Datum

end Connectors
