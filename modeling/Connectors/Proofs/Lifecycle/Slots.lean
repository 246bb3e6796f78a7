import Connectors.Lifecycle
import Mathlib.Data.List.Nodup
import Mathlib.Data.List.Perm.Basic

/-!
# Outcomes at their places

An outcome that is put at an empty place is added to the others (`Slots.outcomes_fill_perm`), and so
are the endpoints that it makes (`Lifecycle.made_fill_perm`). When each place has got its outcome,
the outcomes stand in the order of their places, whatever the order in which they came
(`Slots.fillAll_pending`).
-/

set_option autoImplicit false
set_option relaxedAutoImplicit false

namespace Connectors

namespace Slots

variable {ρ : Type} {slots : Slots ρ} {place : Nat} {outcome : ρ} {ended : List (Nat × ρ)}

@[simp] theorem outcomes_pending (count : Nat) : (pending count : Slots ρ).outcomes = [] := by
  simp [pending, outcomes]

@[simp] theorem outcomes_map_some (outcomes : List ρ) :
    Slots.outcomes (outcomes.map some) = outcomes := by
  simp [Slots.outcomes, List.filterMap_map]

/-- An outcome at an empty place is added to the others. -/
theorem outcomes_fill_perm (hempty : slots[place]? = some none) (outcome : ρ) :
    (slots.fill place outcome).outcomes.Perm (outcome :: slots.outcomes) := by
  induction slots generalizing place with
  | nil => simp at hempty
  | cons slot slots ih =>
    cases place with
    | zero =>
      obtain rfl : slot = none := by simpa using hempty
      simp [fill, outcomes]
    | succ place =>
      have hrest := @ih place (by simpa using hempty)
      cases slot with
      | none => simpa [fill, outcomes] using hrest
      | some first =>
        have hswap := (hrest.cons first).trans (List.Perm.swap outcome first _)
        simpa [fill, outcomes] using hswap

/-! ### All places -/

theorem length_fillAll : (slots.fillAll ended).length = slots.length := by
  induction ended generalizing slots with
  | nil => rfl
  | cons first rest ih =>
    rw [fillAll, List.foldl_cons]
    exact ih.trans (List.length_set ..)

theorem fillAll_of_not_mem (hplace : place ∉ ended.map (·.1)) :
    (slots.fillAll ended)[place]? = slots[place]? := by
  induction ended generalizing slots with
  | nil => rfl
  | cons first rest ih =>
    obtain ⟨hfirst, hrest⟩ := not_or.mp (mt List.mem_cons.mpr hplace)
    rw [fillAll, List.foldl_cons]
    exact (ih hrest).trans (List.getElem?_set_ne (Ne.symm hfirst))

/-- Where each place gets one outcome, it has that in the end. -/
theorem fillAll_of_mem (hplaces : (ended.map (·.1)).Nodup) (hended : (place, outcome) ∈ ended)
    (hplace : place < slots.length) : (slots.fillAll ended)[place]? = some (some outcome) := by
  induction ended generalizing slots with
  | nil => simp at hended
  | cons first rest ih =>
    obtain ⟨hfirst, hrest⟩ := List.nodup_cons.mp hplaces
    rw [fillAll, List.foldl_cons]
    rcases List.mem_cons.mp hended with rfl | hended
    · refine (fillAll_of_not_mem hfirst).trans ?_
      simp [fill, hplace]
    · exact ih hrest hended (by simpa [fill] using hplace)

/-! ### Outcomes that end in any order -/

section Ended

variable {outcomes : List ρ} (hended : ended.Perm (outcomes.zipIdx.map Prod.swap))

include hended

theorem places_perm : (ended.map (·.1)).Perm (List.range outcomes.length) := by
  refine (hended.map (·.1)).trans (List.Perm.of_eq ?_)
  simp [Function.comp_def, List.range_eq_range']

theorem outcomes_perm : (ended.map (·.2)).Perm outcomes := by
  refine (hended.map (·.2)).trans (List.Perm.of_eq ?_)
  rw [List.map_map]
  exact List.zipIdx_map_fst 0 _

theorem getElem?_of_mem {ending : Nat × ρ} (hending : ending ∈ ended) :
    outcomes[ending.1]? = some ending.2 := by
  obtain ⟨⟨held, place⟩, hplace, rfl⟩ := List.mem_map.mp (hended.mem_iff.mp hending)
  exact List.mem_zipIdx_iff_getElem?.mp hplace

/-- The order in which the outcomes come does not show. -/
theorem fillAll_pending : (pending outcomes.length).fillAll ended = outcomes.map some := by
  have hplaces : (ended.map (·.1)).Nodup := (places_perm hended).nodup_iff.mpr List.nodup_range
  refine List.ext_getElem? fun place ↦ ?_
  by_cases hplace : place < outcomes.length
  · have hmem : (place, outcomes[place]) ∈ ended := by
      refine hended.mem_iff.mpr (List.mem_map.mpr ⟨(outcomes[place], place), ?_, rfl⟩)
      simp [List.mem_zipIdx_iff_getElem?]
    rw [fillAll_of_mem hplaces hmem (by simpa [pending] using hplace)]
    simp [hplace]
  · have hlength : ((pending outcomes.length : Slots ρ).fillAll ended).length ≤ place := by
      simpa [length_fillAll, pending] using hplace
    rw [List.getElem?_eq_none hlength, List.getElem?_eq_none (by simpa using hplace)]

end Ended

end Slots

namespace Lifecycle

variable {ε η : Type}

theorem made_cons (outcome : Except ε η) (outcomes : List (Except ε η)) :
    made (outcome :: outcomes) = made [outcome] ++ made outcomes := by
  cases outcome <;> simp [made]

theorem made_append (outcomes others : List (Except ε η)) :
    made (outcomes ++ others) = made outcomes ++ made others :=
  List.filterMap_append

/-- An activation that ends adds the endpoint that it made, if it made one. -/
theorem made_fill_perm {slots : Slots (Except ε η)} {place : Nat}
    (hempty : slots[place]? = some none) (outcome : Except ε η) :
    (made (slots.fill place outcome).outcomes).Perm (made [outcome] ++ made slots.outcomes) := by
  rw [← made_cons]
  exact (Slots.outcomes_fill_perm hempty outcome).filterMap _

end Lifecycle

end Connectors
