import Connectors.Proofs.Lifecycle.Calls
import Connectors.Proofs.Lifecycle.Slots

/-!
# Runs made of runs

One run after another is a run (`Calls.run?_append`). The activations of a start may end in any
order, each at its place, and are then all known (`Calls.run?_activated`, `Calls.conclude_ended`).
What a start that failed or a stop has to shut down may be shut down one after another
(`Calls.run?_abandon`, `Calls.run?_shutDown`).
-/

set_option autoImplicit false
set_option relaxedAutoImplicit false

namespace Connectors

namespace Calls

variable {η : Type} {application : Application} {calls middle last : Calls η}

/-- When all activations have ended the start goes by whether any failed. -/
theorem conclude_ended {outcomes : List (Except ActivationError η)} {skipped : Nat}
    (hlock : calls.start? = some (.activating (outcomes.map some) skipped)) :
    calls.conclude =
      match Lifecycle.failures outcomes with
      | [] => some ({ calls with
          set := .started (Lifecycle.made outcomes) skipped
          start? := none }, some (.ok ()))
      | error :: _ => some ({ calls with
          start? := some (.aborting error (Lifecycle.made outcomes)) }, none) := by
  have hended : (outcomes.map some).all Option.isSome = true := by simp
  simp only [conclude, hlock, hended, if_true, Slots.outcomes_map_some, Lifecycle.conclude]
  cases Lifecycle.failures outcomes <;> rfl

variable [DecidableEq η]

/-! ### Runs made of runs -/

theorem run?_append {first second : List (Action η)} {answers later : List Answer}
    (hfirst : calls.run? application first = some (middle, answers))
    (hsecond : middle.run? application second = some (last, later)) :
    calls.run? application (first ++ second) = some (last, answers ++ later) := by
  induction first generalizing calls answers with
  | nil =>
    obtain ⟨rfl, rfl⟩ := Prod.mk.inj (Option.some.inj hfirst)
    exact hsecond
  | cons action rest ih =>
    obtain ⟨next, answer, others, hperform, hrest, rfl⟩ := run?_cons hfirst
    simp [run?, hperform, ih hrest]

theorem run?_silent {action : Action η} {rest : List (Action η)}
    (hperform : calls.perform? application action = some (middle, none))
    (hrest : middle.run? application rest = some (last, [])) :
    calls.run? application (action :: rest) = some (last, []) := by
  simp [run?, hperform, hrest]

/-- Activations end one after another, each at its place. -/
theorem run?_activated (application : Application) {slots : Slots (Except ActivationError η)}
    {skipped : Nat} {ended : List (Nat × Except ActivationError η)}
    (hlock : calls.start? = some (.activating slots skipped))
    (hplaces : (ended.map (·.1)).Nodup)
    (hempty : ∀ place ∈ ended.map (·.1), slots[place]? = some none)
    (hhandles : (Lifecycle.made (ended.map (·.2))).Nodup)
    (hnew : ∀ handle ∈ Lifecycle.made (ended.map (·.2)), handle ∉ calls.made) :
    ∃ made, made.Perm (Lifecycle.made (ended.map (·.2)) ++ calls.made) ∧
      calls.run? application (ended.map fun ending ↦ .activated ending.1 ending.2) =
        some ({ calls with
          start? := some (.activating (slots.fillAll ended) skipped)
          made }, []) := by
  induction ended generalizing calls slots with
  | nil =>
    refine ⟨calls.made, .refl _, ?_⟩
    have hsame : calls.start? = some (.activating (slots.fillAll []) skipped) := hlock
    rw [← hsame]
    rfl
  | cons first rest ih =>
    obtain ⟨place, outcome⟩ := first
    obtain ⟨hplace, hothers⟩ := List.nodup_cons.mp hplaces
    obtain ⟨hfirst, hrest⟩ := List.forall_mem_cons.mp hempty
    rw [List.map_cons, Lifecycle.made_cons] at hhandles hnew
    obtain ⟨-, hlater, hdisjoint⟩ := List.nodup_append.mp hhandles
    let next : Calls η := { calls with
      start? := some (.activating (slots.fill place outcome) skipped)
      made := Lifecycle.made [outcome] ++ calls.made }
    have hstep : calls.perform? application (.activated place outcome) = some (next, none) := by
      simp only [perform?, activated, hlock]
      rw [if_pos ⟨hfirst, fun handle hhandle ↦ hnew handle (List.mem_append_left _ hhandle)⟩]
      rfl
    have hstill : ∀ other ∈ rest.map (·.1), (slots.fill place outcome)[other]? = some none := by
      intro other hother
      have hne : place ≠ other := fun heq ↦ hplace (heq ▸ hother)
      exact (List.getElem?_set_ne hne).trans (hrest other hother)
    have hlaterNew : ∀ handle ∈ Lifecycle.made (rest.map (·.2)),
        handle ∉ Lifecycle.made [outcome] ++ calls.made := by
      intro handle hhandle hmem
      rcases List.mem_append.mp hmem with hmem | hmem
      · exact hdisjoint handle hmem handle hhandle rfl
      · exact hnew handle (List.mem_append_right _ hhandle) hmem
    obtain ⟨made, hmade, hrun⟩ := @ih next _ rfl hothers hstill hlater hlaterNew
    refine ⟨made, hmade.trans ?_, run?_silent hstep hrun⟩
    rw [List.map_cons, Lifecycle.made_cons, ← List.append_assoc]
    exact List.perm_append_comm.append_right _

/-- A start that failed shuts down all that is left to it. -/
theorem run?_abandon {error : ActivationError} {shut : List (η × Except String Unit)}
    (hlock : calls.start? = some (.aborting error (shut.map (·.1)))) :
    calls.run? application (shut.map fun closing ↦ .abandon closing.1 closing.2) =
      some ({ calls with
        start? := some (.aborting error [])
        closed := shut.reverse ++ calls.closed }, []) := by
  induction shut generalizing calls with
  | nil =>
    have hnone : calls.start? = some (.aborting error []) := hlock
    rw [← hnone]
    rfl
  | cons first rest ih =>
    obtain ⟨handle, outcome⟩ := first
    have hstep : calls.perform? application (.abandon handle outcome) = some ({ calls with
        start? := some (.aborting error (rest.map (·.1)))
        closed := (handle, outcome) :: calls.closed }, none) := by
      simp [perform?, abandon, hlock]
    refine run?_silent hstep ((ih rfl).trans ?_)
    simp

/-- A stop shuts down all that it took. -/
theorem run?_shutDown {stops : List (List η)} {shut : List (η × Except String Unit)}
    (hstops : calls.stops = stops ++ [shut.map (·.1)]) :
    calls.run? application (shut.map fun closing ↦
        .shutDown stops.length closing.1 closing.2) =
      some ({ calls with
        stops := stops ++ [[]]
        closed := shut.reverse ++ calls.closed }, []) := by
  induction shut generalizing calls with
  | nil =>
    have hnone : calls.stops = stops ++ [[]] := hstops
    rw [← hnone]
    rfl
  | cons first rest ih =>
    obtain ⟨handle, outcome⟩ := first
    have hstep : calls.perform? application (.shutDown stops.length handle outcome) =
        some ({ calls with
          stops := stops ++ [rest.map (·.1)]
          closed := (handle, outcome) :: calls.closed }, none) := by
      simp [perform?, shutDown, hstops]
    refine run?_silent hstep ((ih rfl).trans ?_)
    simp

end Calls

end Connectors
