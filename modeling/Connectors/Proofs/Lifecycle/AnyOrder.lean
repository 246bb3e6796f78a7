import Connectors.Proofs.Lifecycle.Ownership
import Connectors.Proofs.Lifecycle.Runs

/-!
# Activations that end in any order

What comes of a start depends on how its activations end and not on when. `Startup` is a start
together with all that happens between its beginning and its answer, where the activation at each
place ends with a given outcome, in whatever order and among whatever shutdowns of stops. How far
such a start has come (`Progress`) is kept by every action (`Progress.perform`), and so in every run
(`Progress.run`): what is gathered so far agrees with the outcomes, and after a failure what was
shut down and what is left make up all that was made. The answer and the reports follow
(`Progress.answer`).
-/

set_option autoImplicit false
set_option relaxedAutoImplicit false

namespace Connectors

namespace Slots

variable {ρ : Type} {slots : Slots ρ} {outcomes : List ρ}

/-- Places that hold of some outcomes what is there so far. -/
structure Holds (slots : Slots ρ) (outcomes : List ρ) : Prop where
  /-- There is a place for each outcome. -/
  length : slots.length = outcomes.length
  /-- What is held at a place is the outcome for that place. -/
  held : ∀ (place : Nat) (outcome : ρ), slots[place]? = some (some outcome) →
    outcomes[place]? = some outcome

theorem holds_pending : Holds (pending outcomes.length) outcomes where
  length := by simp [pending]
  held place outcome hheld := by simp [pending, List.getElem?_replicate] at hheld

theorem Holds.fill (hholds : slots.Holds outcomes) {place : Nat} {outcome : ρ}
    (houtcome : outcomes[place]? = some outcome) : (slots.fill place outcome).Holds outcomes := by
  refine ⟨(List.length_set ..).trans hholds.length, fun other held hheld ↦ ?_⟩
  by_cases hother : place = other
  · subst hother
    have hlt : place < slots.length := by
      simpa [Slots.fill] using (List.getElem?_eq_some_iff.mp hheld).1
    rw [Slots.fill, List.getElem?_set_self hlt, Option.some.injEq, Option.some.injEq] at hheld
    exact hheld ▸ houtcome
  · rw [Slots.fill, List.getElem?_set_ne hother] at hheld
    exact hholds.held other held hheld

/-- When all places are filled all outcomes are there. -/
theorem Holds.outcomes_eq (hholds : slots.Holds outcomes)
    (hfilled : slots.all Option.isSome = true) : slots.outcomes = outcomes := by
  have hall : slots = outcomes.map some := by
    refine List.ext_getElem (by simpa using hholds.length) fun place hplace hplace' ↦ ?_
    obtain ⟨outcome, houtcome⟩ :=
      Option.isSome_iff_exists.mp (List.all_eq_true.mp hfilled _ (List.getElem_mem hplace))
    have hsame := hholds.held place outcome (by rw [List.getElem?_eq_getElem hplace, houtcome])
    rw [houtcome, List.getElem_map, (List.getElem?_eq_some_iff.mp hsame).2]
  rw [hall, outcomes_map_some]

end Slots

namespace Lifecycle

variable {ε η : Type}

theorem failures_eq_nil_iff {outcomes : List (Except ε η)} :
    failures outcomes = [] ↔ ∀ outcome ∈ outcomes, ∃ handle, outcome = .ok handle := by
  induction outcomes with
  | nil => simp [failures]
  | cons outcome rest ih =>
    rw [List.forall_mem_cons, ← ih]
    cases outcome <;> simp [failures]

/-- The first failure comes after activations that all made their endpoints. -/
theorem failures_eq_cons {made : List η} {error : ε} {rest : List (Except ε η)} :
    failures (made.map .ok ++ .error error :: rest) = error :: failures rest := by
  have hmade : failures (made.map (.ok : η → Except ε η)) = [] :=
    failures_eq_nil_iff.mpr (by simp)
  rw [failures, List.filterMap_append, ← failures, hmade]
  rfl

end Lifecycle

/-- The handle of the endpoint that a start which failed has shut down. -/
def Action.abandoned? {η : Type} : Action η → Option η
  | .abandon handle _ => some handle
  | _ => none

namespace Calls

variable {η : Type}

/-- What a start reports of the outcomes of its activations when it takes them up. -/
def reports (calls : Calls η) : Action η → List Event
  | .conclude =>
    match calls.start? with
    | some (.activating slots _) =>
      (Lifecycle.conclude ActivationError.message slots.outcomes).events
    | _ => []
  | _ => []

/-- Activations that end in some order end each with its outcome. -/
theorem activated_given {outcomes : List (Except ActivationError η)}
    {ended : List (Nat × Except ActivationError η)}
    (hended : ended.Perm (outcomes.zipIdx.map Prod.swap)) (place : Nat)
    (outcome : Except ActivationError η)
    (hmem : .activated place outcome ∈
      ended.map fun ending ↦ (.activated ending.1 ending.2 : Action η)) :
    outcomes[place]? = some outcome := by
  obtain ⟨ending, hending, heq⟩ := List.mem_map.mp hmem
  obtain ⟨rfl, rfl⟩ := Action.activated.inj heq
  exact Slots.getElem?_of_mem hended hending

variable [DecidableEq η]

/-- What starts report of the outcomes of their activations while actions happen one after
another. -/
def runReports (application : Application) : List (Action η) → Calls η → List Event
  | [], _ => []
  | action :: rest, calls =>
    calls.reports action ++
      match calls.perform? application action with
      | none => []
      | some (next, _) => runReports application rest next

/-- A start whose activations begin, end each with its outcome of those given, and are answered for
by the last of some actions. -/
inductive Startup (application : Application) (outcomes : List (Except ActivationError η))
    (calls : Calls η) : List (Action η) → List Event → Answer → Calls η → Prop
  | intro {begun between calls' : Calls η} {actions : List (Action η)} {last : Action η}
      {answer : Answer}
      (hstart : calls.perform? application .start = some (begun, none))
      (hbetween : begun.run? application actions = some (between, []))
      (hlast : between.perform? application last = some (calls', some answer))
      (houtcomes : ∀ place outcome, .activated place outcome ∈ actions →
        outcomes[place]? = some outcome) :
      Startup application outcomes calls (actions ++ [last])
        (begun.runReports application (actions ++ [last])) answer calls'

theorem Startup.starts {application : Application} {outcomes : List (Except ActivationError η)}
    {calls calls' : Calls η} {actions : List (Action η)} {told : List Event} {answer : Answer}
    (hstartup : Startup application outcomes calls actions told answer calls') :
    Starts application calls answer calls' := by
  cases hstartup with
  | intro hstart hbetween hlast _ => exact .later hstart hbetween hlast

/-! ### How far a start has come -/

variable {application : Application} {outcomes : List (Except ActivationError η)} {skipped : Nat}
  {before calls calls' : Calls η} {abandoned : List η} {told : List Event} {action : Action η}

/-- How far a start has come whose activations end with given outcomes: what it has shut down, and
what it has reported of the outcomes. -/
inductive Progress (outcomes : List (Except ActivationError η)) (skipped : Nat) (before : Calls η) :
    List η → List Event → Calls η → Prop
  /-- Its activations are under way. -/
  | activating {calls : Calls η} {slots : Slots (Except ActivationError η)}
      (hset : calls.set = before.set)
      (hlock : calls.start? = some (.activating slots skipped))
      (hholds : slots.Holds outcomes) :
      Progress outcomes skipped before [] [] calls
  /-- It has failed. -/
  | aborting {calls : Calls η} {error : ActivationError} {others : List ActivationError}
      {abandoned left : List η}
      (hset : calls.set = before.set)
      (hlock : calls.start? = some (.aborting error left))
      (hfailures : Lifecycle.failures outcomes = error :: others)
      (hmade : (abandoned ++ left).Perm (Lifecycle.made outcomes))
      (hclosed : ∀ handle ∈ abandoned, handle ∈ calls.closed.map (·.1)) :
      Progress outcomes skipped before abandoned
        (Lifecycle.conclude ActivationError.message outcomes).events calls

/-- While activations are under way, what they end with is gathered until all of it is taken up. -/
theorem progress_of_activating {slots : Slots (Except ActivationError η)}
    (hset : calls.set = before.set) (hlock : calls.start? = some (.activating slots skipped))
    (hholds : slots.Holds outcomes)
    (hperform : calls.perform? application action = some (calls', none))
    (houtcome : ∀ place outcome, action = .activated place outcome →
      outcomes[place]? = some outcome) :
    Progress outcomes skipped before action.abandoned?.toList (calls.reports action) calls' := by
  cases action with
  | start => simp [perform?, start, hlock] at hperform
  | activated place outcome =>
    obtain ⟨after, hafter, heq⟩ := Option.map_eq_some_iff.mp hperform
    obtain ⟨rfl, -⟩ := Prod.mk.inj heq
    obtain ⟨slots', skipped', hlock', -, -, rfl⟩ := activated_cases hafter
    obtain ⟨rfl, rfl⟩ : slots' = slots ∧ skipped' = skipped := by
      simpa [hlock] using hlock'.symm
    exact .activating hset rfl (hholds.fill (houtcome place outcome rfl))
  | conclude =>
    obtain ⟨slots', skipped', hlock', hfilled, hend⟩ := conclude_cases hperform
    obtain ⟨rfl, rfl⟩ : slots' = slots ∧ skipped' = skipped := by
      simpa [hlock] using hlock'.symm
    have houtcomes := hholds.outcomes_eq hfilled
    rw [houtcomes] at hend
    obtain ⟨-, hanswer, -⟩ | ⟨error, others, hfailures, -, rfl⟩ := hend
    · cases hanswer
    · have hreports : calls.reports (.conclude : Action η) =
          (Lifecycle.conclude ActivationError.message outcomes).events := by
        simp [reports, hlock, houtcomes]
      rw [hreports]
      exact .aborting hset rfl hfailures (.refl _) (by simp [Action.abandoned?])
  | abandon handle outcome => simp [perform?, abandon, hlock] at hperform
  | fail => simp [perform?, fail, hlock] at hperform
  | stop => simp [perform?, stop, hlock] at hperform
  | shutDown place handle outcome =>
    obtain ⟨after, hafter, heq⟩ := Option.map_eq_some_iff.mp hperform
    obtain ⟨rfl, -⟩ := Prod.mk.inj heq
    obtain ⟨left, -, -, rfl⟩ := shutDown_cases hafter
    exact .activating hset hlock hholds

/-- A start that has failed shuts down one endpoint after another of those that were made. -/
theorem progress_of_aborting {error : ActivationError} {others : List ActivationError}
    {left : List η} (hset : calls.set = before.set)
    (hlock : calls.start? = some (.aborting error left))
    (hfailures : Lifecycle.failures outcomes = error :: others)
    (hmade : (abandoned ++ left).Perm (Lifecycle.made outcomes))
    (hclosed : ∀ handle ∈ abandoned, handle ∈ calls.closed.map (·.1))
    (hperform : calls.perform? application action = some (calls', none)) :
    Progress outcomes skipped before (abandoned ++ action.abandoned?.toList)
      ((Lifecycle.conclude ActivationError.message outcomes).events ++ calls.reports action)
      calls' := by
  cases action with
  | start => simp [perform?, start, hlock] at hperform
  | activated place outcome => simp [perform?, activated, hlock] at hperform
  | conclude => simp [perform?, conclude, hlock] at hperform
  | abandon handle outcome =>
    obtain ⟨after, hafter, heq⟩ := Option.map_eq_some_iff.mp hperform
    obtain ⟨rfl, -⟩ := Prod.mk.inj heq
    obtain ⟨error', left', hlock', hleft, rfl⟩ := abandon_cases hafter
    obtain ⟨rfl, rfl⟩ : error' = error ∧ left' = left := by simpa [hlock] using hlock'.symm
    have hshut : (abandoned ++ [handle] ++ left'.erase handle).Perm (Lifecycle.made outcomes) := by
      rw [List.append_assoc, List.singleton_append]
      exact ((List.perm_cons_erase hleft).symm.append_left abandoned).trans hmade
    rw [show calls.reports (.abandon handle outcome) = [] from rfl, List.append_nil]
    refine .aborting hset rfl hfailures hshut fun other hother ↦ ?_
    rcases List.mem_append.mp hother with hother | hother
    · exact List.mem_cons_of_mem _ (hclosed other hother)
    · rw [List.mem_singleton.mp hother]
      exact List.mem_cons_self
  | fail =>
    obtain ⟨error', -, -, hanswer⟩ := fail_cases hperform
    cases hanswer
  | stop => simp [perform?, stop, hlock] at hperform
  | shutDown place handle outcome =>
    obtain ⟨after, hafter, heq⟩ := Option.map_eq_some_iff.mp hperform
    obtain ⟨rfl, -⟩ := Prod.mk.inj heq
    obtain ⟨stopping, -, -, rfl⟩ := shutDown_cases hafter
    rw [show calls.reports (.shutDown place handle outcome) = [] from rfl, List.append_nil,
      show (Action.shutDown place handle outcome).abandoned? = none from rfl, Option.toList_none,
      List.append_nil]
    exact .aborting hset hlock hfailures hmade fun other hother ↦
      List.mem_cons_of_mem _ (hclosed other hother)

/-- A start goes on with whatever happens until it answers. -/
theorem Progress.perform (hprogress : Progress outcomes skipped before abandoned told calls)
    (hperform : calls.perform? application action = some (calls', none))
    (houtcome : ∀ place outcome, action = .activated place outcome →
      outcomes[place]? = some outcome) :
    Progress outcomes skipped before (abandoned ++ action.abandoned?.toList)
      (told ++ calls.reports action) calls' := by
  cases hprogress with
  | activating hset hlock hholds =>
    exact progress_of_activating hset hlock hholds hperform houtcome
  | aborting hset hlock hfailures hmade hclosed =>
    exact progress_of_aborting hset hlock hfailures hmade hclosed hperform

/-- So a start goes on through every run in which it does not answer. -/
theorem Progress.run {actions : List (Action η)}
    (hprogress : Progress outcomes skipped before abandoned told calls) (rest : List (Action η))
    (hrun : calls.run? application actions = some (calls', []))
    (houtcomes : ∀ place outcome, .activated place outcome ∈ actions →
      outcomes[place]? = some outcome) :
    ∃ since, calls.runReports application (actions ++ rest) =
        since ++ calls'.runReports application rest ∧
      Progress outcomes skipped before (abandoned ++ actions.filterMap Action.abandoned?)
        (told ++ since) calls' := by
  induction actions generalizing calls abandoned told with
  | nil =>
    obtain rfl : calls = calls' := (Prod.mk.inj (Option.some.inj hrun)).1
    exact ⟨[], rfl, by simpa using hprogress⟩
  | cons action actions ih =>
    obtain ⟨next, answer, later, hperform, hrest, hanswer⟩ := run?_cons hrun
    obtain ⟨hanswer, rfl⟩ := List.append_eq_nil_iff.mp hanswer.symm
    obtain rfl : answer = none := by simpa using hanswer
    have hnext := hprogress.perform hperform fun place outcome heq ↦
      houtcomes place outcome (heq ▸ List.mem_cons_self)
    obtain ⟨since, hsince, hlater⟩ := ih hnext hrest fun place outcome hmem ↦
      houtcomes place outcome (List.mem_cons_of_mem _ hmem)
    refine ⟨calls.reports action ++ since, ?_, ?_⟩
    · simp only [List.cons_append, runReports, hperform, hsince, List.append_assoc]
    · have habandoned : (action :: actions).filterMap Action.abandoned? =
          action.abandoned?.toList ++ actions.filterMap Action.abandoned? := by
        cases haction : action.abandoned? <;> simp [haction]
      rw [habandoned, ← List.append_assoc, ← List.append_assoc]
      exact hlater

/-- When a start answers, it has told of the outcomes of its activations what there is to tell. If
any failed, its answer is the first failure, the set is as it was, and all that was made is shut
down. -/
theorem Progress.answer {answer : Answer}
    (hprogress : Progress outcomes skipped before abandoned told calls)
    (hperform : calls.perform? application action = some (calls', some answer)) :
    action.abandoned? = none ∧
      told ++ calls.reports action =
        (Lifecycle.conclude ActivationError.message outcomes).events ∧
      ((Lifecycle.failures outcomes = [] ∧ answer = .ok () ∧ abandoned = [] ∧
          calls'.set = .started (Lifecycle.made outcomes) skipped) ∨
        ∃ error others, Lifecycle.failures outcomes = error :: others ∧
          answer = .error (.activation error) ∧ abandoned.Perm (Lifecycle.made outcomes) ∧
          calls'.set = before.set ∧ ∀ handle ∈ abandoned, handle ∈ calls'.closed.map (·.1)) := by
  cases hprogress with
  | @activating _ slots hset hlock hholds =>
    cases action with
    | start => simp [perform?, start, hlock] at hperform
    | conclude =>
      obtain ⟨slots', skipped', hlock', hfilled, hend⟩ := conclude_cases hperform
      obtain ⟨rfl, rfl⟩ : slots' = slots ∧ skipped' = skipped := by
        simpa [hlock] using hlock'.symm
      have houtcomes := hholds.outcomes_eq hfilled
      rw [houtcomes] at hend
      obtain ⟨hfailures, hanswer, rfl⟩ | ⟨-, -, -, hanswer, -⟩ := hend
      · refine ⟨rfl, by simp [reports, hlock, houtcomes], .inl ?_⟩
        exact ⟨hfailures, Option.some.inj hanswer, rfl, rfl⟩
      · cases hanswer
    | fail => simp [perform?, fail, hlock] at hperform
    | _ =>
      obtain ⟨after, -, heq⟩ := Option.map_eq_some_iff.mp hperform
      simp at heq
  | @aborting _ error others _ left hset hlock hfailures hmade hclosed =>
    cases action with
    | start => simp [perform?, start, hlock] at hperform
    | conclude => simp [perform?, conclude, hlock] at hperform
    | fail =>
      obtain ⟨error', hlock', rfl, hanswer⟩ := fail_cases hperform
      obtain ⟨rfl, rfl⟩ : error = error' ∧ left = [] := by simpa [hlock] using hlock'
      refine ⟨rfl, by simp [reports], .inr ⟨error, others, hfailures, Option.some.inj hanswer, ?_,
        hset, hclosed⟩⟩
      simpa using hmade
    | _ =>
      obtain ⟨after, -, heq⟩ := Option.map_eq_some_iff.mp hperform
      simp at heq

/-! ### Starts -/

/-- What comes of a start whose activations end with given outcomes. -/
theorem Startup.progress {sections : List ComponentSection}
    (hpending : application.pending.value = .ok (sections, skipped))
    (hlength : outcomes.length = sections.length) {actions : List (Action η)} {answer : Answer}
    (hstartup : Startup application outcomes calls actions told answer calls') :
    told = (Lifecycle.conclude ActivationError.message outcomes).events ∧
      ((Lifecycle.failures outcomes = [] ∧ answer = .ok () ∧
          actions.filterMap Action.abandoned? = [] ∧
          calls'.set = .started (Lifecycle.made outcomes) skipped) ∨
        ∃ error others, Lifecycle.failures outcomes = error :: others ∧
          answer = .error (.activation error) ∧
          (actions.filterMap Action.abandoned?).Perm (Lifecycle.made outcomes) ∧
          calls'.set = calls.set ∧
          ∀ handle ∈ Lifecycle.made outcomes, handle ∈ calls'.closed.map (·.1)) := by
  cases hstartup with
  | @intro begun between calls' actions last answer hstart hbetween hlast houtcomes =>
    have hbegun : Progress outcomes skipped calls [] [] begun := by
      obtain ⟨-, ⟨-, error, hanswer⟩ | ⟨-, -, sections', skipped', hpending', rfl⟩⟩ :=
        start_cases hstart
      · cases hanswer
      · obtain ⟨rfl, rfl⟩ : sections = sections' ∧ skipped = skipped' := by
          simpa [hpending] using hpending'
        exact .activating rfl rfl (hlength ▸ Slots.holds_pending)
    obtain ⟨since, hsince, hprogress⟩ := hbegun.run [last] hbetween houtcomes
    obtain ⟨hlastAbandoned, htold, hend⟩ := hprogress.answer hlast
    have habandoned : (actions ++ [last]).filterMap Action.abandoned? =
        [] ++ actions.filterMap Action.abandoned? := by
      simp [hlastAbandoned]
    have hreports : begun.runReports application (actions ++ [last]) =
        [] ++ since ++ between.reports last := by
      rw [hsince]
      simp [runReports, hlast]
    rw [hreports, habandoned]
    refine ⟨htold, hend.imp_right ?_⟩
    rintro ⟨error, others, hfailures, hanswer, hshut, hset, hclosed⟩
    exact ⟨error, others, hfailures, hanswer, hshut, hset,
      fun handle hhandle ↦ hclosed handle (hshut.mem_iff.mpr hhandle)⟩

/-- Whatever the order in which the activations end, the start can go on to an answer. -/
theorem exists_startup {sections : List ComponentSection}
    (hpending : application.pending.value = .ok (sections, skipped))
    (hlength : outcomes.length = sections.length) (hlock : calls.start? = none)
    (hrunning : calls.set.running = false) (hhandles : (Lifecycle.made outcomes).Nodup)
    (hnew : ∀ handle ∈ Lifecycle.made outcomes, handle ∉ calls.made)
    {ended : List (Nat × Except ActivationError η)}
    (hended : ended.Perm (outcomes.zipIdx.map Prod.swap)) :
    ∃ rest told answer calls', Startup application outcomes calls
      (ended.map (fun ending ↦ .activated ending.1 ending.2) ++ rest) told answer calls' := by
  let begun : Calls η := { calls with
    start? := some (.activating (.pending outcomes.length) skipped) }
  have hstart : calls.perform? application .start = some (begun, none) := by
    simp [perform?, start, hlock, hrunning, hpending, begun, hlength]
  have hplaces := Slots.places_perm hended
  have hempty : ∀ place ∈ ended.map (·.1),
      (Slots.pending outcomes.length : Slots (Except ActivationError η))[place]? = some none := by
    intro place hplace
    have hlt := List.mem_range.mp (hplaces.mem_iff.mp hplace)
    simp [Slots.pending, hlt]
  have hmade : (Lifecycle.made (ended.map (·.2))).Perm (Lifecycle.made outcomes) :=
    (Slots.outcomes_perm hended).filterMap _
  have hgiven := activated_given hended
  have hbegun : begun.start? = some (.activating (.pending outcomes.length) skipped) := rfl
  obtain ⟨made, -, hactivated⟩ := run?_activated application hbegun
    (hplaces.nodup_iff.mpr List.nodup_range) hempty (hmade.nodup_iff.mpr hhandles)
    fun handle hhandle ↦ hnew handle (hmade.mem_iff.mp hhandle)
  rw [Slots.fillAll_pending hended] at hactivated
  let known : Calls η := { begun with
    start? := some (.activating (outcomes.map some) skipped)
    made }
  have hconclude := @conclude_ended η known outcomes skipped rfl
  cases hfailures : Lifecycle.failures outcomes with
  | nil =>
    rw [hfailures] at hconclude
    exact ⟨[.conclude], _, _, _, .intro hstart hactivated hconclude hgiven⟩
  | cons error others =>
    rw [hfailures] at hconclude
    let shut : List (η × Except String Unit) := (Lifecycle.made outcomes).map fun handle ↦
      (handle, .ok ())
    let aborting : Calls η := { known with
      start? := some (.aborting error (Lifecycle.made outcomes)) }
    have hconcluded : known.perform? application .conclude = some (aborting, none) := hconclude
    have haborting : aborting.start? = some (.aborting error (shut.map (·.1))) := by
      simp [aborting, shut, Function.comp_def]
    let emptied : Calls η := { aborting with
      start? := some (.aborting error [])
      closed := shut.reverse ++ aborting.closed }
    have habandon :
        aborting.run? application (shut.map fun closing ↦ .abandon closing.1 closing.2) =
          some (emptied, []) := run?_abandon haborting
    have hbetween := run?_append hactivated (run?_silent hconcluded habandon)
    have hlast : emptied.perform? application .fail =
        some ({ emptied with start? := none }, some (.error (.activation error))) := rfl
    have hstartup := Startup.intro hstart hbetween hlast fun place outcome hmem ↦
      (List.mem_append.mp hmem).elim (hgiven place outcome) fun hmem ↦ by simp at hmem
    rw [List.append_assoc] at hstartup
    exact ⟨_, _, _, _, hstartup⟩

/-- What comes of a start whose activations begin depends on how each of them ends, not on the order
in which they end or on what stops do meanwhile. It answers that it runs exactly when all made their
endpoints. Otherwise it answers with the first failure in the order of the sections, reports each
failure in that order and then how many endpoints had been made, and shuts down these and no others.
And in whatever order the activations end, the start goes on to an answer. -/
theorem startup_in_any_order {sections : List ComponentSection}
    (hpending : application.pending.value = .ok (sections, skipped))
    (hlength : outcomes.length = sections.length) :
    (∀ actions told answer calls',
      Startup application outcomes calls actions told answer calls' →
        (answer = .ok () ↔ ∀ outcome ∈ outcomes, ∃ handle, outcome = .ok handle) ∧
        (answer = .ok () → told = [] ∧ actions.filterMap Action.abandoned? = [] ∧
          calls'.set = .started (Lifecycle.made outcomes) skipped) ∧
        ∀ (handles : List η) (error : ActivationError) (rest : List (Except ActivationError η)),
          outcomes = handles.map .ok ++ .error error :: rest →
            answer = .error (.activation error) ∧
            told = (Lifecycle.failures outcomes).map (fun failure ↦
                .fail "Component activation failed" [("error", failure.message)]) ++
              [.warn "Startup aborted, shutting down activated endpoints"
                [("active", Integer.write (Lifecycle.made outcomes).length)]] ∧
            (actions.filterMap Action.abandoned?).Perm (Lifecycle.made outcomes) ∧
            calls'.set = calls.set ∧
            ∀ handle ∈ Lifecycle.made outcomes, handle ∈ calls'.closed.map (·.1)) ∧
    (calls.start? = none → calls.set.running = false → (Lifecycle.made outcomes).Nodup →
      (∀ handle ∈ Lifecycle.made outcomes, handle ∉ calls.made) →
      ∀ ended : List (Nat × Except ActivationError η), ended.Perm (outcomes.zipIdx.map Prod.swap) →
        ∃ rest told answer calls', Startup application outcomes calls
          (ended.map (fun ending ↦ .activated ending.1 ending.2) ++ rest) told answer calls') := by
  refine ⟨fun actions told answer calls' hstartup ↦ ?_,
    fun hlock hrunning hhandles hnew ended ↦
      exists_startup hpending hlength hlock hrunning hhandles hnew⟩
  obtain ⟨htold, hend⟩ := hstartup.progress hpending hlength
  rw [← Lifecycle.failures_eq_nil_iff]
  rcases hend with ⟨hfailures, rfl, hnone, hset⟩ |
    ⟨error, others, hfailures, rfl, hshut, hset, hclosed⟩
  · refine ⟨by simp [hfailures], fun _ ↦ ⟨?_, hnone, hset⟩, ?_⟩
    · rw [htold, Lifecycle.conclude, hfailures]
    · rintro handles error rest rfl
      rw [Lifecycle.failures_eq_cons] at hfailures
      cases hfailures
  · refine ⟨by simp [hfailures], by simp, ?_⟩
    intro handles first rest houtcomes
    have hfirst := hfailures
    rw [houtcomes, Lifecycle.failures_eq_cons] at hfirst
    obtain ⟨rfl, -⟩ := List.cons.inj hfirst
    refine ⟨rfl, ?_, hshut, hset, hclosed⟩
    rw [htold, Lifecycle.conclude, hfailures]

/-- The second activation ends first and makes an endpoint, then the first one fails. -/
theorem startup_in_any_order_relay :
    let failure : ActivationError := .factory "audit" (.other "no route")
    let outcomes : List (Except ActivationError Nat) := [.error failure, .ok 7]
    ∃ rest told answer calls', Startup relay outcomes ({} : Calls Nat)
        ([.activated 1 (.ok 7), .activated 0 (.error failure)] ++ rest) told answer calls' ∧
      answer = .error (.activation failure) ∧
      told = [.fail "Component activation failed" [("error", failure.message)],
        .warn "Startup aborted, shutting down activated endpoints" [("active", "1")]] ∧
      rest.filterMap Action.abandoned? = [7] ∧ 7 ∈ calls'.closed.map (·.1) := by
  intro failure outcomes
  have hpending : relay.pending.value = .ok ([⟨"audit", true, []⟩, ⟨"orders", true, []⟩], 0) := rfl
  obtain ⟨hresult, hexists⟩ :=
    @startup_in_any_order Nat _ relay outcomes 0 {} _ hpending rfl
  obtain ⟨rest, told, answer, calls', hstartup⟩ := hexists rfl rfl (by decide) (by decide)
    [(1, .ok 7), (0, .error failure)] (List.Perm.swap _ _ _)
  obtain ⟨-, -, hfailed⟩ := hresult _ _ _ _ hstartup
  obtain ⟨hanswer, htold, hshut, -, hclosed⟩ := hfailed [] failure [.ok 7] rfl
  exact ⟨rest, told, answer, calls', hstartup, hanswer, htold.trans (by decide +kernel),
    List.perm_singleton.mp hshut, hclosed 7 (List.mem_singleton.mpr rfl)⟩

end Calls

end Connectors
