import Connectors.Binding.Binder
import Mathlib.Data.List.Perm.Basic

/-!
# Groups of raw values

`Supplied.ofRaw` sorts raw values into groups by the normal forms of their keys, and binding takes
the groups out one after another. Here both are brought back to the raw values themselves: a group
is a filter of them (`Supplied.group_ofRaw`), taking a group leaves the others as they are
(`Supplied.group_without`), and what is left at the end are the entries of the forms that were not
taken (`Supplied.entries_filter_perm`).
-/

set_option autoImplicit false
set_option relaxedAutoImplicit false

namespace Connectors.Supplied

/-- All entries, whatever their group. -/
def entries (supplied : Supplied) : List (String × RawValue) :=
  supplied.flatMap (·.2)

/-- Every entry stands in the group of its own normal form. -/
def Grouped (supplied : Supplied) : Prop :=
  ∀ group ∈ supplied, ∀ entry ∈ group.2, Key.normal entry.1 = group.1

/-! ### Adding entries -/

theorem group_add (form other : String) (entry : String × RawValue) (supplied : Supplied) :
    (supplied.add form entry).group other =
      supplied.group other ++ if form = other then [entry] else [] := by
  induction supplied with
  | nil => simp [add, group]
  | cons head rest ih =>
    obtain ⟨first, held⟩ := head
    by_cases hfirst : first = form
    · by_cases hother : first = other <;> simp_all [add, group]
    · by_cases hother : first = other
      · subst hother
        simp [add, group, hfirst, Ne.symm hfirst]
      · simp [add, group, hfirst, hother, ih]

theorem entries_add_perm (form : String) (entry : String × RawValue) (supplied : Supplied) :
    (supplied.add form entry).entries.Perm (entry :: supplied.entries) := by
  induction supplied with
  | nil => simp [add, entries]
  | cons head rest ih =>
    obtain ⟨first, held⟩ := head
    by_cases hfirst : first = form
    · simp only [add, entries, hfirst, if_true, List.flatMap_cons, List.append_assoc]
      exact List.perm_middle
    · have hrest : (held ++ (add form entry rest).entries).Perm
          (entry :: (held ++ entries rest)) :=
        (ih.append_left held).trans List.perm_middle
      simpa [add, entries, hfirst] using hrest

theorem grouped_add {supplied : Supplied} (hgrouped : supplied.Grouped)
    (entry : String × RawValue) : (supplied.add (Key.normal entry.1) entry).Grouped := by
  induction supplied with
  | nil =>
    intro group hmem other hother
    obtain rfl := List.mem_singleton.mp hmem
    rw [List.mem_singleton.mp hother]
  | cons head rest ih =>
    obtain ⟨first, held⟩ := head
    simp only [Grouped, List.forall_mem_cons] at hgrouped
    obtain ⟨hheld, hrest⟩ := hgrouped
    by_cases hfirst : first = Key.normal entry.1
    · simp only [add, hfirst, if_true, Grouped, List.forall_mem_cons]
      refine ⟨fun other hother ↦ ?_, hrest⟩
      rcases List.mem_append.mp hother with hold | hnew
      · exact (hheld other hold).trans hfirst
      · rw [List.mem_singleton.mp hnew]
    · simp only [add, hfirst, if_false, Grouped, List.forall_mem_cons]
      exact ⟨hheld, ih hrest⟩

/-! ### The groups of raw values -/

/-- The groups of raw values added to groups that are there already. -/
private theorem foldl_add (raw : RawValues) (supplied : Supplied) (hgrouped : supplied.Grouped) :
    let after := raw.foldl (fun supplied entry ↦ supplied.add (Key.normal entry.1) entry) supplied
    (∀ form, after.group form =
        supplied.group form ++ raw.filter fun entry ↦ Key.normal entry.1 = form) ∧
      after.entries.Perm (supplied.entries ++ raw) ∧ after.Grouped := by
  induction raw generalizing supplied with
  | nil => simpa using hgrouped
  | cons entry rest ih =>
    obtain ⟨hgroup, hentries, hafter⟩ := ih _ (grouped_add hgrouped entry)
    refine ⟨fun form ↦ ?_, ?_, hafter⟩
    · rw [List.foldl_cons, hgroup, group_add, List.append_assoc]
      by_cases hform : Key.normal entry.1 = form <;> simp [hform]
    · refine hentries.trans (((entries_add_perm _ entry supplied).append_right rest).trans ?_)
      exact List.perm_middle.symm

/-- A group holds the entries whose keys have its normal form, in their order. -/
theorem group_ofRaw (raw : RawValues) (form : String) :
    (ofRaw raw).group form = raw.filter fun entry ↦ Key.normal entry.1 = form := by
  simpa [group, ofRaw] using (foldl_add raw [] (by simp [Grouped])).1 form

/-- No entry is lost, and none is added. -/
theorem entries_ofRaw_perm (raw : RawValues) : (ofRaw raw).entries.Perm raw := by
  simpa [entries, ofRaw] using (foldl_add raw [] (by simp [Grouped])).2.1

theorem grouped_ofRaw (raw : RawValues) : (ofRaw raw).Grouped :=
  (foldl_add raw [] (by simp [Grouped])).2.2

/-! ### Taking groups out -/

theorem group_without (form other : String) (supplied : Supplied) (hother : other ≠ form) :
    (supplied.without form).group other = supplied.group other := by
  induction supplied with
  | nil => rfl
  | cons head rest ih =>
    obtain ⟨first, held⟩ := head
    unfold without at ih ⊢
    by_cases hfirst : first = form
    · rw [List.filter_cons_of_neg (by simpa using hfirst), ih, group, if_neg]
      exact fun h ↦ hother (h.symm.trans hfirst)
    · rw [List.filter_cons_of_pos (by simpa using hfirst), group, group, ih]

/-- Of groups under their own normal forms, choosing some by their form chooses the entries whose
keys have one of these forms. -/
theorem entries_filter {supplied : Supplied} (hgrouped : supplied.Grouped) (keep : String → Bool) :
    entries (supplied.filter fun group ↦ keep group.1) =
      supplied.entries.filter fun entry ↦ keep (Key.normal entry.1) := by
  induction supplied with
  | nil => rfl
  | cons head rest ih =>
    obtain ⟨first, held⟩ := head
    simp only [Grouped, List.forall_mem_cons] at hgrouped
    obtain ⟨hheld, hrest⟩ := hgrouped
    have hfilter : (held.filter fun entry ↦ keep (Key.normal entry.1)) =
        if keep first then held else [] := by
      rw [List.filter_congr fun entry hentry ↦ by rw [hheld entry hentry]]
      by_cases hkeep : keep first <;> simp [hkeep]
    specialize ih hrest
    unfold entries at ih ⊢
    by_cases hkeep : keep first <;> simp [hkeep, hfilter, ih]

/-- The entries left when groups are chosen by their form are those of the raw values. -/
theorem entries_filter_perm (raw : RawValues) (keep : String → Bool) :
    (entries ((ofRaw raw).filter fun group ↦ keep group.1)).Perm
      (raw.filter fun entry ↦ keep (Key.normal entry.1)) := by
  rw [entries_filter (grouped_ofRaw raw)]
  exact (entries_ofRaw_perm raw).filter _

end Connectors.Supplied
