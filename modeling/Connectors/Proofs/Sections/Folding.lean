import Connectors.Proofs.Sections.Leaves
import Mathlib.Data.List.Count
import Mathlib.Data.List.Forall2

/-!
# What folding can do

Folding a table has two outcomes (`Relaxed.foldFields_cases`): all its leaves, each once and in the
order of their paths, or the report of a path that two of them have. So a section folds exactly when
no path to a value stands twice, and folding all sections of a source fails only for a section in
which one does (`Relaxed.fold_cases`, `Relaxed.foldAll_cases`).
-/

set_option autoImplicit false
set_option relaxedAutoImplicit false

namespace Connectors.Relaxed

open Datum (leaves fieldLeaves pathTo IsLeaf)

/-- How often a path leads to one of some values. -/
def occurrences (path : String) (values : List (String × Datum)) : Nat :=
  (values.map (·.1)).count path

theorem occurrences_append (path : String) (first second : List (String × Datum)) :
    occurrences path (first ++ second) = occurrences path first + occurrences path second := by
  rw [occurrences, List.map_append, List.count_append]
  rfl

theorem occurrences_perm {first second : List (String × Datum)} (hperm : first.Perm second)
    (path : String) : occurrences path first = occurrences path second :=
  (hperm.map _).count_eq path

theorem occurrences_pos_iff {path : String} {values : List (String × Datum)} :
    0 < occurrences path values ↔ path ∈ Fields.names values :=
  List.count_pos_iff

/-- A path leads to no more values than all its spellings together. -/
theorem occurrences_le_of_normal {path key : String} (hpath : Key.normal path = Key.normal key)
    (values : List (String × Datum)) :
    occurrences path values ≤ (values.filter fun value ↦ Key.agree value.1 key).length := by
  rw [occurrences, List.count, List.countP_map, ← List.countP_eq_length_filter]
  refine List.countP_mono_left fun value _ hvalue ↦ ?_
  obtain rfl : value.1 = path := by simpa using hvalue
  exact Key.agree_iff.mpr hpath

/-- What becomes of values that are added to those folded already. -/
inductive FoldsInto (id : String) (values : List (String × Datum)) :
    Except LayerFault (List (String × Datum)) → Prop
  | folded {result : List (String × Datum)} (hperm : result.Perm values)
      (hordered : Fields.Ordered result) : FoldsInto id values (.ok result)
  | twice {path : String} (htwice : 2 ≤ occurrences path values) :
      FoldsInto id values (.error (.setTwice id path))

theorem foldValue_isLeaf_cases {value : Datum} (hleaf : value.IsLeaf) (id path : String)
    {folded : List (String × Datum)} (hordered : Fields.Ordered folded) :
    FoldsInto id (folded ++ [(path, value)]) (foldValue id path folded value) := by
  by_cases hnew : path ∈ Fields.names folded
  · have hhas : Fields.has path folded = true := by
      rw [Fields.has, Option.isSome_iff_ne_none, ne_eq, Fields.get?_eq_none_iff, not_not]
      exact hnew
    have hfault : foldValue id path folded value = .error (.setTwice id path) := by
      cases value with
      | table fields => exact absurd rfl (hleaf fields)
      | _ => simp [foldValue, hhas]
    rw [hfault]
    refine .twice ?_
    have hone : occurrences path [(path, value)] = 1 := by simp [occurrences]
    have hpos := occurrences_pos_iff.mpr hnew
    rw [occurrences_append, hone]
    omega
  · rw [foldValue_isLeaf hleaf id hnew]
    refine .folded ?_ (Fields.ordered_put hordered)
    exact (Fields.put_perm hnew).trans (List.perm_append_singleton _ _).symm

mutual

theorem foldValue_cases (id path : String) {folded : List (String × Datum)} (value : Datum)
    (hordered : Fields.Ordered folded) :
    FoldsInto id (folded ++ leaves path value) (foldValue id path folded value) := by
  by_cases htable : ∃ fields, value = .table fields
  · obtain ⟨fields, rfl⟩ := htable
    rw [leaves, foldValue]
    exact foldFields_cases id path fields hordered
  · have hleaf : value.IsLeaf := not_exists.mp htable
    rw [Datum.leaves_of_isLeaf hleaf]
    exact foldValue_isLeaf_cases hleaf id path hordered

/-- Folding fields collects all their leaves, or finds a path that two values have. -/
theorem foldFields_cases (id path : String) {folded : List (String × Datum)}
    (fields : List (String × Datum)) (hordered : Fields.Ordered folded) :
    FoldsInto id (folded ++ fieldLeaves path fields) (foldFields id path folded fields) := by
  match fields with
  | [] =>
    rw [fieldLeaves, List.append_nil, foldFields]
    exact .folded (.refl folded) hordered
  | (key, value) :: rest =>
    have hfirst := foldValue_cases id (pathTo path key) value hordered
    have hstep : foldFields id path folded ((key, value) :: rest) =
        match foldValue id (pathTo path key) folded value with
        | .ok folded => foldFields id path folded rest
        | .error fault => .error fault := by
      rw [foldFields]
      rfl
    rw [fieldLeaves, ← List.append_assoc, hstep]
    generalize foldValue id (pathTo path key) folded value = outcome at hfirst
    cases hfirst with
    | twice htwice =>
      refine .twice (htwice.trans ?_)
      rw [occurrences_append _ (folded ++ _)]
      exact Nat.le_add_right _ _
    | @folded middle hmiddle hmiddleOrdered =>
      have hmore := hmiddle.append_right (fieldLeaves path rest)
      have hrest := foldFields_cases id path rest hmiddleOrdered
      change FoldsInto id _ (foldFields id path middle rest)
      generalize foldFields id path middle rest = outcome at hrest
      cases hrest with
      | twice htwice => exact .twice (occurrences_perm hmore _ ▸ htwice)
      | folded hperm hresult => exact .folded (hperm.trans hmore) hresult

end

/-- What becomes of the value of a section. -/
inductive SectionFolds (id : String) (value : Datum) : Except LayerFault Datum → Prop
  | table {fields entries : List (String × Datum)} (hvalue : value = .table fields)
      (hperm : entries.Perm (fieldLeaves "" fields)) (hordered : Fields.Ordered entries) :
      SectionFolds id value (.ok (.table entries))
  | leaf (hleaf : value.IsLeaf) : SectionFolds id value (.ok value)
  | twice {fields : List (String × Datum)} {path : String} (hvalue : value = .table fields)
      (htwice : 2 ≤ occurrences path (fieldLeaves "" fields)) :
      SectionFolds id value (.error (.setTwice id path))

theorem fold_cases (id : String) (value : Datum) : SectionFolds id value (fold id value) := by
  by_cases htable : ∃ fields, value = .table fields
  · obtain ⟨fields, rfl⟩ := htable
    have hfields := foldFields_cases id "" fields List.Pairwise.nil
    rw [List.nil_append] at hfields
    rw [fold]
    generalize foldFields id "" [] fields = outcome at hfields
    cases hfields with
    | folded hperm hordered => exact .table rfl hperm hordered
    | twice htwice => exact .twice rfl htwice
  · have hleaf : value.IsLeaf := not_exists.mp htable
    have hfold : fold id value = .ok value := by
      cases value with
      | table fields => exact absurd rfl (hleaf fields)
      | _ => rfl
    rw [hfold]
    exact .leaf hleaf

/-- The sections of a source are folded one by one, and the first that cannot be is at fault. -/
theorem foldAll_cases (sections : List (String × Datum)) :
    (∃ folded, foldAll sections = .ok folded ∧
      List.Forall₂ (fun given result ↦ result.1 = given.1 ∧ fold given.1 given.2 = .ok result.2)
        sections folded) ∨
      ∃ given ∈ sections, ∃ fault, fold given.1 given.2 = .error fault ∧
        foldAll sections = .error fault := by
  induction sections with
  | nil => exact .inl ⟨[], rfl, .nil⟩
  | cons first rest ih =>
    obtain ⟨id, value⟩ := first
    rw [foldAll]
    cases hfirst : fold id value with
    | error fault => exact .inr ⟨(id, value), List.mem_cons_self, fault, hfirst, rfl⟩
    | ok result =>
      rcases ih with ⟨folded, hfolded, hall⟩ | ⟨given, hgiven, fault, hfault, hrest⟩
      · exact .inl ⟨(id, result) :: folded, by rw [hfolded]; rfl, .cons ⟨rfl, hfirst⟩ hall⟩
      · exact .inr ⟨given, List.mem_cons_of_mem _ hgiven, fault, hfault, by rw [hrest]; rfl⟩

/-- Where all sections can be folded, each of them is. -/
theorem forall₂_of_foldAll {sections folded : List (String × Datum)}
    (hfolded : foldAll sections = .ok folded) :
    List.Forall₂ (fun given result ↦ result.1 = given.1 ∧ fold given.1 given.2 = .ok result.2)
      sections folded := by
  obtain ⟨others, hothers, hfolds⟩ | ⟨_, _, fault, _, hfault⟩ := foldAll_cases sections
  · obtain rfl := Except.ok.inj (hothers.symm.trans hfolded)
    exact hfolds
  · cases hfault.symm.trans hfolded

end Connectors.Relaxed
