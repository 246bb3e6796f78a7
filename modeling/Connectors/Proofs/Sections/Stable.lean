import Connectors.Proofs.Sections.Reading
import Connectors.Proofs.Sections.Relaxing

/-!
# Sections that are folded

A value is folded when it is no table or a table without tables, its names in order
(`Datum.IsFolded`). Folding leaves such a value as it is (`Relaxed.fold_of_isFolded`), and what it
gives is such a value (`Relaxed.isFolded_of_fold`), so folding a second time changes nothing.

Sections are folded when all their values are (`Relaxed.Folded`). They are folded after they were
relaxed, whatever they were before, and stay so when folded sections are put over them
(`Relaxed.folded_of_relax`, `Relaxed.Folded.overlayFields`). Relaxing sections where none are known
folds them and nothing else (`Relaxed.relax_nil`), and finite numbers stay finite
(`Relaxed.settledFields_foldAll`).
-/

set_option autoImplicit false
set_option relaxedAutoImplicit false

namespace Connectors

namespace Datum

/-! ### Fields over fields -/

/-- What holds of all values on both sides, and of one over another, holds of the values of fields
that are put over others. -/
theorem forall_overlayFields {P : Datum → Prop}
    (hover : ∀ held value, P held → P value → P (held.overlay value))
    {earlier later : List (String × Datum)} (hearlier : ∀ field ∈ earlier, P field.2)
    (hlater : ∀ field ∈ later, P field.2) : ∀ field ∈ overlayFields earlier later, P field.2 := by
  induction later generalizing earlier with
  | nil => simpa [overlayFields] using hearlier
  | cons field rest ih =>
    obtain ⟨key, value⟩ := field
    obtain ⟨hfirst, hrest⟩ := List.forall_mem_cons.mp hlater
    rw [overlayFields_cons]
    refine ih (fun field hfield ↦ ?_) hrest
    rcases Fields.mem_of_mem_put hfield with rfl | hold
    · cases hget : Fields.get? key earlier with
      | none => exact hfirst
      | some held => exact hover held value (hearlier _ (Fields.mem_of_get?_eq_some hget)) hfirst
    · exact hearlier field hold

/-! ### Folded values -/

/-- A value that is no table, or a table without tables with its names in order. -/
def IsFolded (value : Datum) : Prop :=
  ∀ entries, value = .table entries → Fields.Ordered entries ∧ ∀ entry ∈ entries, entry.2.IsLeaf

theorem IsLeaf.isFolded {value : Datum} (hleaf : value.IsLeaf) : value.IsFolded :=
  fun entries hvalue ↦ absurd hvalue (hleaf entries)

theorem isFolded_table {entries : List (String × Datum)} (hordered : Fields.Ordered entries)
    (hleaf : ∀ entry ∈ entries, entry.2.IsLeaf) : (table entries).IsFolded := by
  rintro _ ⟨⟩
  exact ⟨hordered, hleaf⟩

theorem isFolded_overlay (held value : Datum) (hheld : held.IsFolded) (hvalue : value.IsFolded) :
    (held.overlay value).IsFolded := by
  by_cases htable : ∃ entries, value = .table entries
  · obtain ⟨entries, rfl⟩ := htable
    obtain ⟨hordered, hleaf⟩ := hvalue entries rfl
    cases held with
    | table fields =>
      obtain ⟨hfields, hleaves⟩ := hheld fields rfl
      rw [overlay]
      refine isFolded_table (ordered_overlayFields hfields)
        (forall_overlayFields (fun _ _ _ hlater ↦ ?_) hleaves hleaf)
      rwa [overlay_of_isLeaf hlater]
    | _ => exact hvalue
  · have hleaf : value.IsLeaf := not_exists.mp htable
    rwa [overlay_of_isLeaf hleaf]

theorem isFolded_settled {value : Datum} (hfolded : value.IsFolded) : value.settled.IsFolded := by
  by_cases htable : ∃ entries, value = .table entries
  · obtain ⟨entries, rfl⟩ := htable
    obtain ⟨hordered, hleaf⟩ := hfolded entries rfl
    rw [settled, Relaxed.settledFields_eq]
    refine isFolded_table (List.pairwise_map.mpr hordered) fun entry hentry ↦ ?_
    obtain ⟨given, hgiven, rfl⟩ := List.mem_map.mp hentry
    exact Relaxed.isLeaf_settled (hleaf given hgiven)
  · exact (Relaxed.isLeaf_settled (not_exists.mp htable)).isFolded

end Datum

namespace Relaxed

open Datum (IsFolded)

/-- What folding gives is folded. -/
theorem isFolded_of_fold {id : String} {value result : Datum} (hfold : fold id value = .ok result) :
    result.IsFolded := by
  have hcases := fold_cases id value
  rw [hfold] at hcases
  cases hcases with
  | leaf hleaf => exact hleaf.isFolded
  | @table fields entries _ hperm hordered =>
    exact Datum.isFolded_table hordered fun entry hentry ↦
      Datum.isLeaf_of_mem_fieldLeaves "" fields entry (hperm.mem_iff.mp hentry)

/-- Folding leaves what is folded as it is. -/
theorem fold_of_isFolded {value : Datum} (hfolded : value.IsFolded) (id : String) :
    fold id value = .ok value := by
  have hcases := fold_cases id value
  generalize fold id value = outcome at hcases
  cases hcases with
  | leaf => rfl
  | @table fields entries hvalue hperm hordered =>
    obtain ⟨hfields, hleaf⟩ := hfolded fields hvalue
    rw [Datum.fieldLeaves_of_isLeaf hleaf] at hperm
    rw [hvalue, hordered.eq_of_perm hfields hperm]
  | @twice fields path hvalue htwice =>
    obtain ⟨hfields, hleaf⟩ := hfolded fields hvalue
    rw [Datum.fieldLeaves_of_isLeaf hleaf] at htwice
    exact absurd hfields.nodup_names (not_nodup_of_occurrences htwice)

/-- Sections whose ids are in order and whose values are folded. -/
structure Folded (sections : List (String × Datum)) : Prop where
  /-- The ids are in order. -/
  ordered : Fields.Ordered sections
  /-- The values are folded. -/
  values : ∀ given ∈ sections, given.2.IsFolded

variable {known sections relaxed : List (String × Datum)}

theorem folded_nil : Folded [] := ⟨List.Pairwise.nil, by simp⟩

theorem Folded.foldAll_eq (hfolded : Folded sections) : foldAll sections = .ok sections := by
  obtain ⟨-, hvalues⟩ := hfolded
  induction sections with
  | nil => rfl
  | cons given rest ih =>
    obtain ⟨id, value⟩ := given
    obtain ⟨hfirst, hrest⟩ := List.forall_mem_cons.mp hvalues
    rw [foldAll, fold_of_isFolded hfirst, ih hrest]
    rfl

theorem Folded.overlayFields (hknown : Folded known) (hrelaxed : Folded relaxed) :
    Folded (Datum.overlayFields known relaxed) :=
  ⟨Datum.ordered_overlayFields hknown.ordered,
    Datum.forall_overlayFields Datum.isFolded_overlay hknown.values hrelaxed.values⟩

theorem Folded.settledFields (hfolded : Folded sections) :
    Folded (Datum.settledFields sections) := by
  rw [settledFields_eq]
  refine ⟨List.pairwise_map.mpr hfolded.ordered, fun given hgiven ↦ ?_⟩
  obtain ⟨other, hother, rfl⟩ := List.mem_map.mp hgiven
  exact Datum.isFolded_settled (hfolded.values other hother)

theorem isFolded_respellSection {name : String} {value : Datum} (hfolded : value.IsFolded) :
    (respellSection known name value).IsFolded := by
  by_cases htable : ∃ entries, value = .table entries
  · obtain ⟨entries, rfl⟩ := htable
    obtain ⟨hordered, hleaf⟩ := hfolded entries rfl
    rw [respellSection_table hordered]
    refine Datum.isFolded_table (Fields.ordered_ofList _) fun entry hentry ↦ ?_
    obtain ⟨given, hgiven, rfl⟩ := List.mem_map.mp (Fields.mem_of_mem_ofList hentry)
    exact hleaf given hgiven
  · have hleaf : value.IsLeaf := not_exists.mp htable
    have hsame : respellSection known name value = value := by
      cases value with
      | table fields => exact absurd rfl (hleaf fields)
      | _ => rfl
    rwa [hsame]

theorem ordered_foldAll {folded : List (String × Datum)} (hfolded : foldAll sections = .ok folded)
    (hordered : Fields.Ordered sections) : Fields.Ordered folded := by
  have hnames : (Fields.names folded).Pairwise (· < ·) := by
    rw [names_foldAll (forall₂_of_foldAll hfolded)]
    exact List.pairwise_map.mpr hordered
  exact List.pairwise_map.mp hnames

theorem isFolded_foldAll {folded : List (String × Datum)}
    (hfolded : foldAll sections = .ok folded) : ∀ result ∈ folded, result.2.IsFolded := by
  have hfolds := forall₂_of_foldAll hfolded
  clear hfolded
  induction hfolds with
  | nil => simp
  | cons hfirst _ ih => exact List.forall_mem_cons.mpr ⟨isFolded_of_fold hfirst.2, ih⟩

theorem folded_foldAll {folded : List (String × Datum)} (hfolded : foldAll sections = .ok folded)
    (hordered : Fields.Ordered sections) : Folded folded :=
  ⟨ordered_foldAll hfolded hordered, isFolded_foldAll hfolded⟩

/-- Sections are folded after they were relaxed. -/
theorem folded_of_relax (hrelax : relax known sections = .ok relaxed) : Folded relaxed := by
  cases hfolded : foldAll sections with
  | error fault => simp [relax_eq, hfolded, Except.map] at hrelax
  | ok folded =>
    obtain rfl : inSpellingsOf known folded = relaxed := by
      simpa [relax_eq, hfolded, Except.map] using hrelax
    refine ⟨List.pairwise_map.mpr (Fields.ordered_ofList _ : Fields.Ordered (respell known folded)),
      fun given hgiven ↦ ?_⟩
    obtain ⟨held, hheld, rfl⟩ := List.mem_map.mp hgiven
    obtain ⟨field, hfield, rfl⟩ := List.mem_map.mp (Fields.mem_of_mem_ofList hheld)
    exact isFolded_respellSection (isFolded_foldAll hfolded field hfield)

/-- Where no sections are known, relaxing folds the sections and nothing else. -/
theorem relax_nil (hordered : Fields.Ordered sections) : relax [] sections = foldAll sections := by
  rw [relax_eq]
  cases hfolded : foldAll sections with
  | error fault => rfl
  | ok folded =>
    have hsame : ∀ name value, respellSection [] name value = value := fun name value ↦ by
      cases value <;> rfl
    refine congrArg Except.ok ?_
    simp only [inSpellingsOf, hsame, respell_nil (ordered_foldAll hfolded hordered), List.map_id']

/-! ### Finite numbers -/

/-- Fields are settled when their values are. -/
theorem settledFields_eq_self_iff {fields : List (String × Datum)} :
    Datum.settledFields fields = fields ↔ ∀ field ∈ fields, field.2.settled = field.2 := by
  rw [settledFields_eq]
  constructor
  · intro hsettled field hfield
    exact congrArg Prod.snd
      (List.map_inj_left.mp (hsettled.trans (List.map_id _).symm) field hfield)
  · intro hvalues
    have hsame : ∀ field ∈ fields, (field.1, field.2.settled) = id field := fun field hfield ↦
      Prod.ext rfl (hvalues field hfield)
    exact (List.map_congr_left hsame).trans (List.map_id _)

end Relaxed

namespace Datum

mutual

theorem leaves_settled (path : String) (value : Datum) :
    leaves path value.settled = (leaves path value).map fun leaf ↦ (leaf.1, leaf.2.settled) := by
  by_cases htable : ∃ fields, value = .table fields
  · obtain ⟨fields, rfl⟩ := htable
    rw [settled, leaves, leaves]
    exact fieldLeaves_settledFields path fields
  · have hleaf : value.IsLeaf := not_exists.mp htable
    rw [leaves_of_isLeaf hleaf, leaves_of_isLeaf (Relaxed.isLeaf_settled hleaf), List.map_singleton]

/-- The leaves of settled fields are the settled leaves. -/
theorem fieldLeaves_settledFields (path : String) (fields : List (String × Datum)) :
    fieldLeaves path (settledFields fields) =
      (fieldLeaves path fields).map fun leaf ↦ (leaf.1, leaf.2.settled) := by
  match fields with
  | [] => rfl
  | (key, value) :: rest =>
    rw [settledFields, fieldLeaves, fieldLeaves, List.map_append, leaves_settled _ value,
      fieldLeaves_settledFields path rest]

end

end Datum

namespace Relaxed

/-- Settled values stay settled when they are folded. -/
theorem settled_of_fold {id : String} {value result : Datum} (hsettled : value.settled = value)
    (hfold : fold id value = .ok result) : result.settled = result := by
  have hcases := fold_cases id value
  rw [hfold] at hcases
  cases hcases with
  | leaf => exact hsettled
  | @table fields entries hvalue hperm =>
    have hfields : Datum.settledFields fields = fields := by
      rw [hvalue, Datum.settled] at hsettled
      exact Datum.table.inj hsettled
    have hleaves := Datum.fieldLeaves_settledFields "" fields
    rw [hfields] at hleaves
    rw [Datum.settled, settledFields_eq_self_iff.mpr fun entry hentry ↦ ?_]
    exact congrArg Prod.snd (List.map_inj_left.mp (hleaves.symm.trans (List.map_id _).symm) entry
      (hperm.mem_iff.mp hentry))

theorem settledFields_foldAll {sections folded : List (String × Datum)}
    (hfolded : foldAll sections = .ok folded) (hsettled : Datum.settledFields sections = sections) :
    Datum.settledFields folded = folded := by
  have hfolds := forall₂_of_foldAll hfolded
  clear hfolded
  rw [settledFields_eq_self_iff] at hsettled ⊢
  induction hfolds with
  | nil => simp
  | cons hfirst _ ih =>
    obtain ⟨hvalue, hrest⟩ := List.forall_mem_cons.mp hsettled
    exact List.forall_mem_cons.mpr ⟨settled_of_fold hvalue hfirst.2, ih hrest⟩

end Relaxed

end Connectors
