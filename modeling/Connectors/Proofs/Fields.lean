import Connectors.Fields
import Mathlib.Data.List.Nodup
import Mathlib.Data.String.Basic

/-!
# Fields in order

The operations on `Fields` keep the names in order and no name twice (`ordered_put`,
`ordered_ofList`). A collection with different names is known by its pairs (`get?_eq_some_iff`), and
one in order by what is among its pairs or found under each name (`Ordered.eq_of_mem_iff`,
`Ordered.ext`). Pairs with different names are all kept when they are put together (`ofList_perm`),
each under its name (`get?_ofList`).
-/

set_option autoImplicit false
set_option relaxedAutoImplicit false

namespace Connectors

/-- Where no key stands twice, looking a key up finds its pair. -/
theorem lookup_eq_some_iff_mem {κ α : Type} [BEq κ] [LawfulBEq κ] {pairs : List (κ × α)} {key : κ}
    {value : α} (hkeys : (pairs.map (·.1)).Nodup) :
    pairs.lookup key = some value ↔ (key, value) ∈ pairs := by
  induction pairs with
  | nil => simp
  | cons pair rest ih =>
    obtain ⟨first, held⟩ := pair
    obtain ⟨hnew, hrest⟩ := List.nodup_cons.mp hkeys
    rw [List.lookup_cons]
    by_cases hfirst : key = first
    · have hlater : (key, value) ∉ rest := fun hmem ↦
        hnew (hfirst ▸ List.mem_map_of_mem (f := (·.1)) hmem)
      simp [hfirst, hfirst ▸ hlater, eq_comm]
    · have hbeq : (key == first) = false := by simpa using hfirst
      simp [hbeq, hfirst, ih hrest]

namespace Fields

variable {α : Type} {name other : String} {value : α} {fields : Fields α}

/-- The names are in order, so none stands twice. -/
def Ordered (fields : Fields α) : Prop :=
  fields.Pairwise (·.1 < ·.1)

instance (fields : Fields α) : Decidable (Ordered fields) :=
  inferInstanceAs (Decidable (fields.Pairwise (·.1 < ·.1)))

theorem Ordered.nodup_names (hordered : Ordered fields) : (names fields).Nodup :=
  List.pairwise_map.mpr (hordered.imp fun h ↦ ne_of_lt h)

/-- Only one order keeps the names in order. -/
theorem Ordered.eq_of_perm {others : Fields α} (hfields : Ordered fields) (hothers : Ordered others)
    (hperm : fields.Perm others) : fields = others :=
  hperm.eq_of_pairwise (fun _ _ _ _ hlt hgt ↦ absurd hgt hlt.asymm) hfields hothers

/-! ### Values by name -/

@[simp] theorem mem_names_iff : name ∈ names fields ↔ ∃ value, (name, value) ∈ fields := by
  simp [names]

theorem get?_eq_none_iff : get? name fields = none ↔ name ∉ names fields := by
  induction fields with
  | nil => simp [get?, names]
  | cons pair rest ih =>
    obtain ⟨first, held⟩ := pair
    by_cases hfirst : first = name
    · simp [get?, names, hfirst]
    · rw [get?, if_neg hfirst, ih]
      simp [names, Ne.symm hfirst]

theorem isSome_get?_iff : (get? name fields).isSome = true ↔ name ∈ names fields := by
  rw [← not_iff_not, ← get?_eq_none_iff, Option.not_isSome_iff_eq_none]

theorem mem_of_get?_eq_some (hget : get? name fields = some value) : (name, value) ∈ fields := by
  induction fields with
  | nil => simp [get?] at hget
  | cons pair rest ih =>
    obtain ⟨first, held⟩ := pair
    by_cases hfirst : first = name
    · rw [get?, if_pos hfirst, Option.some.injEq] at hget
      simp [hfirst, hget]
    · rw [get?, if_neg hfirst] at hget
      exact List.mem_cons_of_mem _ (ih hget)

/-- Where no name stands twice, the value under a name is that of its pair. -/
theorem get?_eq_some_iff (hnames : (names fields).Nodup) :
    get? name fields = some value ↔ (name, value) ∈ fields := by
  refine ⟨mem_of_get?_eq_some, fun hmem ↦ ?_⟩
  cases hget : get? name fields with
  | none => exact absurd (mem_names_iff.mpr ⟨value, hmem⟩) (get?_eq_none_iff.mp hget)
  | some held =>
    have hpair := List.inj_on_of_nodup_map hnames (mem_of_get?_eq_some hget) hmem rfl
    rw [(Prod.mk.inj hpair).2]

/-- Fields in order are known by what is among them. -/
theorem Ordered.eq_of_mem_iff {others : Fields α} (hfields : Ordered fields)
    (hothers : Ordered others) (hmem : ∀ field, field ∈ fields ↔ field ∈ others) :
    fields = others := by
  have hperm : fields.Perm others :=
    (List.perm_ext_iff_of_nodup hfields.nodup_names.of_map hothers.nodup_names.of_map).mpr hmem
  exact hfields.eq_of_perm hothers hperm

/-- Fields in order are known by what stands under each name. -/
theorem Ordered.ext {others : Fields α} (hfields : Ordered fields) (hothers : Ordered others)
    (hget : ∀ name, get? name fields = get? name others) : fields = others := by
  refine hfields.eq_of_mem_iff hothers ?_
  rintro ⟨name, value⟩
  rw [← get?_eq_some_iff hfields.nodup_names, ← get?_eq_some_iff hothers.nodup_names, hget]

theorem get?_append (name : String) (fields others : Fields α) :
    get? name (fields ++ others) = (get? name fields).or (get? name others) := by
  induction fields with
  | nil => simp [get?]
  | cons field rest ih =>
    by_cases hname : field.1 = name <;> simp [get?, hname, ih]

theorem get?_filter (keep : String → Bool) (fields : Fields α) :
    get? name (fields.filter fun field ↦ keep field.1) =
      if keep name then get? name fields else none := by
  induction fields with
  | nil => simp [get?]
  | cons field rest ih =>
    obtain ⟨other, value⟩ := field
    by_cases hother : other = name
    · subst hother
      by_cases hkeep : keep other = true <;> simp_all [get?]
    · by_cases hkeep : keep other = true <;> simp [get?, hother, hkeep, ih]

theorem get?_map {β : Type} (f : String → α → β) (fields : Fields α) :
    get? name (fields.map fun field ↦ (field.1, f field.1 field.2)) =
      (get? name fields).map (f name) := by
  induction fields with
  | nil => rfl
  | cons field rest ih =>
    obtain ⟨other, value⟩ := field
    by_cases hother : other = name
    · subst hother
      simp [get?]
    · simp [get?, hother, ih]

/-- Where no name stands twice, at most one field has a name. -/
theorem filter_name (hnames : (names fields).Nodup) :
    fields.filter (·.1 = name) = ((get? name fields).map fun value ↦ (name, value)).toList := by
  induction fields with
  | nil => rfl
  | cons field rest ih =>
    obtain ⟨hfirst, hrest⟩ := List.nodup_cons.mp hnames
    by_cases hname : field.1 = name
    · have hnone : get? name rest = none := get?_eq_none_iff.mpr (hname ▸ hfirst)
      rw [List.filter_cons_of_pos (by simpa using hname), ih hrest, hnone, get?, if_pos hname]
      simp [← hname]
    · rw [List.filter_cons_of_neg (by simpa using hname), ih hrest, get?, if_neg hname]

/-! ### Writing under a name -/

theorem mem_names_put :
    other ∈ names (put name value fields) ↔ other = name ∨ other ∈ names fields := by
  by_cases hother : other = name
  · have hget := get?_put_self name value fields
    simp only [hother, true_or, iff_true]
    by_contra hmem
    rw [get?_eq_none_iff.mpr hmem] at hget
    cases hget
  · simp only [hother, false_or]
    rw [← not_iff_not, ← get?_eq_none_iff, ← get?_eq_none_iff, get?_put_of_ne value fields hother]

theorem mem_of_mem_put {field : String × α} (hfield : field ∈ put name value fields) :
    field = (name, value) ∨ field ∈ fields := by
  induction fields with
  | nil => exact .inl (List.mem_singleton.mp hfield)
  | cons pair rest ih =>
    obtain ⟨first, held⟩ := pair
    rw [put] at hfield
    split_ifs at hfield
    · exact (List.mem_cons.mp hfield).imp_right (List.mem_cons_of_mem _)
    · exact List.mem_cons.mp hfield
    · rcases List.mem_cons.mp hfield with rfl | hfield
      · exact .inr List.mem_cons_self
      · exact (ih hfield).imp_right (List.mem_cons_of_mem _)

/-- A value takes the place of the one that was put under its name before. -/
theorem put_put (name : String) (first second : α) (fields : Fields α) :
    put name second (put name first fields) = put name second fields := by
  induction fields with
  | nil => simp [put]
  | cons field rest ih =>
    obtain ⟨other, held⟩ := field
    by_cases heq : name = other
    · simp [put, heq]
    · by_cases hlt : name < other
      · simp [put, heq, hlt]
      · simp [put, heq, hlt, ih]

/-- A value under a new name is added to the others. -/
theorem put_perm (hname : name ∉ names fields) :
    (put name value fields).Perm ((name, value) :: fields) := by
  induction fields with
  | nil => simp [put]
  | cons pair rest ih =>
    obtain ⟨first, held⟩ := pair
    obtain ⟨hne, hrest⟩ := not_or.mp (mt List.mem_cons.mpr hname)
    by_cases hlt : name < first
    · simp [put, hne, hlt]
    · rw [put, if_neg hne, if_neg hlt]
      exact ((ih hrest).cons _).trans (List.Perm.swap _ _ _)

theorem ordered_put (hordered : Ordered fields) : Ordered (put name value fields) := by
  induction fields with
  | nil => simp [put, Ordered]
  | cons pair rest ih =>
    obtain ⟨first, held⟩ := pair
    obtain ⟨hfirst, hrest⟩ := List.pairwise_cons.mp hordered
    by_cases heq : name = first
    · rw [put, if_pos heq]
      exact List.pairwise_cons.mpr ⟨fun pair hpair ↦ heq ▸ hfirst pair hpair, hrest⟩
    · by_cases hlt : name < first
      · rw [put, if_neg heq, if_pos hlt]
        refine List.pairwise_cons.mpr ⟨fun pair hpair ↦ ?_, hordered⟩
        rcases List.mem_cons.mp hpair with rfl | hpair
        · exact hlt
        · exact hlt.trans (hfirst pair hpair)
      · have hgt : first < name := lt_of_le_of_ne (not_lt.mp hlt) (Ne.symm heq)
        rw [put, if_neg heq, if_neg hlt]
        refine List.pairwise_cons.mpr ⟨fun pair hpair ↦ ?_, ih hrest⟩
        have hmem : pair.1 ∈ names (put name value rest) := List.mem_map_of_mem hpair
        rcases mem_names_put.mp hmem with hname | hmem
        · exact hname ▸ hgt
        · obtain ⟨value, hvalue⟩ := mem_names_iff.mp hmem
          exact hfirst (pair.1, value) hvalue

/-! ### Writing many pairs -/

theorem ordered_putAll (hordered : Ordered fields) (pairs : List (String × α)) :
    Ordered (putAll fields pairs) := by
  induction pairs generalizing fields with
  | nil => exact hordered
  | cons pair rest ih => exact ih (ordered_put hordered)

theorem ordered_ofList (pairs : List (String × α)) : Ordered (ofList pairs) :=
  ordered_putAll List.Pairwise.nil pairs

theorem mem_names_putAll {pairs : List (String × α)} :
    name ∈ names (putAll fields pairs) ↔ name ∈ names fields ∨ name ∈ pairs.map (·.1) := by
  induction pairs generalizing fields with
  | nil => simp [putAll]
  | cons pair rest ih =>
    rw [putAll, List.foldl_cons]
    refine ih.trans ?_
    rw [mem_names_put, List.map_cons, List.mem_cons]
    tauto

theorem mem_of_mem_putAll {pairs : List (String × α)} {field : String × α}
    (hfield : field ∈ putAll fields pairs) : field ∈ fields ∨ field ∈ pairs := by
  induction pairs generalizing fields with
  | nil => exact .inl hfield
  | cons pair rest ih =>
    rcases ih hfield with hput | hrest
    · rcases mem_of_mem_put hput with rfl | hheld
      · exact .inr List.mem_cons_self
      · exact .inl hheld
    · exact .inr (List.mem_cons_of_mem _ hrest)

theorem mem_of_mem_ofList {pairs : List (String × α)} {field : String × α}
    (hfield : field ∈ ofList pairs) : field ∈ pairs :=
  (mem_of_mem_putAll hfield).resolve_left List.not_mem_nil

/-- Pairs with names that are new and different are added to the others. -/
theorem putAll_perm {pairs : List (String × α)} (hpairs : (pairs.map (·.1)).Nodup)
    (hnew : ∀ pair ∈ pairs, pair.1 ∉ names fields) :
    (putAll fields pairs).Perm (fields ++ pairs) := by
  induction pairs generalizing fields with
  | nil => simp [putAll]
  | cons pair rest ih =>
    obtain ⟨hpair, hrest⟩ := List.nodup_cons.mp hpairs
    obtain ⟨hfirst, hothers⟩ := List.forall_mem_cons.mp hnew
    have hstep : ∀ other ∈ rest, other.1 ∉ names (put pair.1 pair.2 fields) := by
      intro other hother hmem
      rcases mem_names_put.mp hmem with heq | hmem
      · exact hpair (List.mem_map.mpr ⟨other, hother, heq⟩)
      · exact hothers other hother hmem
    refine (ih hrest hstep).trans (((put_perm hfirst).append_right rest).trans ?_)
    exact List.perm_middle.symm

theorem ofList_perm {pairs : List (String × α)} (hpairs : (pairs.map (·.1)).Nodup) :
    (ofList pairs).Perm pairs := by
  have hnew : ∀ pair ∈ pairs, pair.1 ∉ names ([] : Fields α) := fun pair _ ↦ List.not_mem_nil
  simpa [ofList] using putAll_perm hpairs hnew

/-- Fields in order are the collection of their pairs. -/
theorem Ordered.ofList_eq (hordered : Ordered fields) : ofList fields = fields :=
  (ordered_ofList fields).eq_of_perm hordered (ofList_perm hordered.nodup_names)

/-- Pairs with different names are found under their names. -/
theorem get?_ofList {pairs : List (String × α)} (hpairs : (names pairs).Nodup) (name : String) :
    get? name (ofList pairs) = get? name pairs := by
  have hperm := ofList_perm hpairs
  refine Option.ext fun value ↦ ?_
  rw [get?_eq_some_iff (ordered_ofList pairs).nodup_names, get?_eq_some_iff hpairs, hperm.mem_iff]

end Fields

end Connectors
