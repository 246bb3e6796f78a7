import Connectors.Proofs.Fields
import Connectors.Sections.Relaxed

/-!
# The values of a table by their paths

`Datum.leaves` lists the values in a table that are no tables themselves, each with the path that
leads to it. Folding a table collects them: it succeeds where no two paths are the same, and then
has each of them once, in the order of their paths (`Relaxed.foldFields_leaves`).
-/

set_option autoImplicit false
set_option relaxedAutoImplicit false

namespace Connectors

namespace Datum

/-- A value that is no table. -/
def IsLeaf (value : Datum) : Prop :=
  ∀ fields, value ≠ .table fields

/-- The path of a name below a path. -/
def pathTo (path key : String) : String :=
  if path.isEmpty then key else path ++ "." ++ key

mutual

/-- The values below a path that are no tables, with their paths. -/
def leaves (path : String) : Datum → List (String × Datum)
  | .table fields => fieldLeaves path fields
  | value => [(path, value)]

/-- The values in fields below a path that are no tables, with their paths. -/
def fieldLeaves (path : String) : List (String × Datum) → List (String × Datum)
  | [] => []
  | (key, value) :: rest => leaves (pathTo path key) value ++ fieldLeaves path rest

end

theorem leaves_of_isLeaf {value : Datum} (hleaf : value.IsLeaf) (path : String) :
    leaves path value = [(path, value)] := by
  cases value with
  | table fields => exact absurd rfl (hleaf fields)
  | _ => rw [leaves]; simp

theorem overlay_of_isLeaf {earlier value : Datum} (hleaf : value.IsLeaf) :
    earlier.overlay value = value := by
  cases value with
  | table fields => exact absurd rfl (hleaf fields)
  | _ => rw [overlay]; simp

theorem fields_of_isLeaf {value : Datum} (hleaf : value.IsLeaf) : value.fields = [] := by
  cases value with
  | table fields => exact absurd rfl (hleaf fields)
  | _ => rfl

/-- Fields without tables are their own leaves. -/
theorem fieldLeaves_of_isLeaf {fields : List (String × Datum)}
    (hleaf : ∀ field ∈ fields, field.2.IsLeaf) : fieldLeaves "" fields = fields := by
  induction fields with
  | nil => rw [fieldLeaves]
  | cons field rest ih =>
    obtain ⟨key, value⟩ := field
    obtain ⟨hfirst, hrest⟩ := List.forall_mem_cons.mp hleaf
    rw [fieldLeaves, leaves_of_isLeaf hfirst, ih hrest]
    simp [pathTo]

mutual

theorem isLeaf_of_mem_leaves (path : String) (value : Datum) :
    ∀ leaf ∈ leaves path value, leaf.2.IsLeaf := by
  match value with
  | .table fields =>
    rw [leaves]
    exact isLeaf_of_mem_fieldLeaves path fields
  | .null | .bool _ | .int _ | .float _ | .text _ | .list _ =>
    intro leaf hmem fields hfields
    rw [leaves_of_isLeaf (by simp [IsLeaf]), List.mem_singleton] at hmem
    simp [hmem] at hfields

theorem isLeaf_of_mem_fieldLeaves (path : String) (fields : List (String × Datum)) :
    ∀ leaf ∈ fieldLeaves path fields, leaf.2.IsLeaf := by
  match fields with
  | [] => simp [fieldLeaves]
  | (key, value) :: rest =>
    intro leaf hmem
    rw [fieldLeaves, List.mem_append] at hmem
    exact hmem.elim (isLeaf_of_mem_leaves _ value leaf) (isLeaf_of_mem_fieldLeaves path rest leaf)

end

end Datum

namespace Relaxed

open Datum

/-- Folding a value that is no table puts it under its path, if that is new. -/
theorem foldValue_isLeaf {value : Datum} (hleaf : value.IsLeaf) (id : String) {path : String}
    {folded : List (String × Datum)} (hnew : path ∉ Fields.names folded) :
    foldValue id path folded value = .ok (Fields.put path value folded) := by
  have hhas : Fields.has path folded = false := by
    rw [Fields.has, Fields.get?_eq_none_iff.mpr hnew]
    rfl
  cases value with
  | table fields => exact absurd rfl (hleaf fields)
  | _ => simp [foldValue, hhas]

mutual

/-- Folding a value collects its leaves, if their paths are new and different. -/
theorem foldValue_leaves (id path : String) (folded : List (String × Datum)) (value : Datum)
    (hpaths : ((folded ++ leaves path value).map (·.1)).Nodup) :
    ∃ result, foldValue id path folded value = .ok result ∧
      result.Perm (folded ++ leaves path value) ∧
      (Fields.Ordered folded → Fields.Ordered result) := by
  by_cases htable : ∃ fields, value = .table fields
  · obtain ⟨fields, rfl⟩ := htable
    rw [leaves] at hpaths ⊢
    rw [foldValue]
    exact foldFields_leaves id path folded fields hpaths
  · have hleaf : value.IsLeaf := not_exists.mp htable
    rw [leaves_of_isLeaf hleaf] at hpaths ⊢
    have hnew : path ∉ Fields.names folded := by
      intro hmem
      rw [List.map_append] at hpaths
      exact List.disjoint_of_nodup_append hpaths hmem (by simp)
    refine ⟨Fields.put path value folded, foldValue_isLeaf hleaf id hnew, ?_, Fields.ordered_put⟩
    exact (Fields.put_perm hnew).trans (List.perm_append_singleton _ _).symm

/-- Folding fields collects their leaves, if their paths are new and different. -/
theorem foldFields_leaves (id path : String) (folded fields : List (String × Datum))
    (hpaths : ((folded ++ fieldLeaves path fields).map (·.1)).Nodup) :
    ∃ result, foldFields id path folded fields = .ok result ∧
      result.Perm (folded ++ fieldLeaves path fields) ∧
      (Fields.Ordered folded → Fields.Ordered result) := by
  match fields with
  | [] =>
    rw [foldFields, fieldLeaves, List.append_nil]
    exact ⟨folded, rfl, .refl folded, fun hordered ↦ hordered⟩
  | (key, value) :: rest =>
    rw [fieldLeaves, ← List.append_assoc] at hpaths ⊢
    have hfirst : ((folded ++ leaves (pathTo path key) value).map (·.1)).Nodup := by
      rw [List.map_append] at hpaths
      exact hpaths.of_append_left
    obtain ⟨middle, hmiddle, hperm, horder⟩ :=
      foldValue_leaves id (pathTo path key) folded value hfirst
    have hmore := hperm.append_right (fieldLeaves path rest)
    have hrest : ((middle ++ fieldLeaves path rest).map (·.1)).Nodup :=
      (hmore.map (·.1)).nodup_iff.mpr hpaths
    obtain ⟨result, hresult, hall, horder'⟩ := foldFields_leaves id path middle rest hrest
    refine ⟨result, ?_, hall.trans hmore, fun hordered ↦ horder' (horder hordered)⟩
    rw [foldFields]
    change (match foldValue id (pathTo path key) folded value with
      | .ok folded => foldFields id path folded rest
      | .error fault => .error fault) = .ok result
    rw [hmiddle]
    exact hresult

end

end Relaxed

end Connectors
