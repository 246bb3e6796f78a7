import Connectors.Proofs.Lifecycle.Calls
import Connectors.Proofs.Lifecycle.Slots

/-!
# Who owns an endpoint

A handle that an activation gives to a start is at every moment in one place: in the hands of the
start while that gathers its endpoints, held by the set while it runs, left to one pending shutdown,
or among the endpoints that were shut down. `Accounted` states this as a permutation between all
handles given out and the handles in all places, together with what the lock is for: while a start
holds it the set does not run, and a set that does not run holds nothing. Every action keeps the
account (`Accounted.perform`), so it holds in every run (`Accounted.run`).

A start that fails does so with nothing in its hands, and what it held was shut down
(`Starts.failed`). All of it together is `endpoints_owned_once`.
-/

set_option autoImplicit false
set_option relaxedAutoImplicit false

namespace Connectors

/-- To shut down one endpoint of one shutdown takes it out of all that is left. -/
theorem flatten_set_erase_perm {η : Type} [DecidableEq η] {lists : List (List η)} {place : Nat}
    {left : List η} {handle : η} (hplace : lists[place]? = some left) (hleft : handle ∈ left) :
    (handle :: (lists.set place (left.erase handle)).flatten).Perm lists.flatten := by
  induction lists generalizing place with
  | nil => simp at hplace
  | cons first rest ih =>
    cases place with
    | zero =>
      obtain rfl : first = left := by simpa using hplace
      exact (List.perm_cons_erase hleft).symm.append_right rest.flatten
    | succ place =>
      have hrest := @ih place (by simpa using hplace)
      exact List.perm_middle.symm.trans (hrest.append_left first)

namespace Calls

variable {η : Type} {calls calls' : Calls η}

/-! ### The account -/

/-- The handles of the endpoints in all places. -/
def places (calls : Calls η) : List η :=
  calls.gathered ++ calls.set.endpoints ++ calls.shutdowns.flatten ++ calls.closed.map (·.1)

/-- The account of the endpoints. -/
structure Accounted (calls : Calls η) : Prop where
  /-- No handle is given out twice. -/
  nodup : calls.made.Nodup
  /-- What was given out is in one place. -/
  placed : calls.places.Perm calls.made
  /-- A set that does not run holds nothing. -/
  empty : calls.set.running = false → calls.set.endpoints = []
  /-- While a start holds the lock the set does not run. -/
  locked : calls.start?.isSome → calls.set.running = false

theorem accounted_initial : Accounted ({} : Calls η) where
  nodup := List.nodup_nil
  placed := .refl _
  empty := fun _ ↦ rfl
  locked := by simp

theorem Accounted.start {application : Application} {answer : Option Answer}
    (haccounted : Accounted calls) (hstart : calls.start application = some (calls', answer)) :
    Accounted calls' := by
  obtain ⟨hlock, ⟨rfl, _⟩ | ⟨hrunning, -, sections, skipped, -, rfl⟩⟩ := start_cases hstart
  · exact haccounted
  · refine ⟨haccounted.nodup, ?_, haccounted.empty, fun _ ↦ hrunning⟩
    simpa [places, gathered, shutdowns, aborted, hlock, Lifecycle.made] using haccounted.placed

theorem Accounted.stop (haccounted : Accounted calls) (hstop : calls.stop = some calls') :
    Accounted calls' := by
  obtain ⟨hlock, rfl⟩ := stop_cases hstop
  have hplaced := haccounted.placed
  cases hrunning : calls.set.running with
  | true =>
    refine ⟨haccounted.nodup, ?_, fun _ ↦ by simp [Lifecycle.take, hrunning], by simp [hlock]⟩
    refine List.Perm.trans ?_ hplaced
    simp only [places, gathered, shutdowns, aborted, hlock, Lifecycle.take, hrunning, if_true,
      List.flatten_append, List.flatten_singleton, List.nil_append, List.append_nil]
    exact List.perm_append_comm.append_right _
  | false =>
    have htake : calls.set.take.value = (calls.set, []) := by simp [Lifecycle.take, hrunning]
    rw [htake]
    refine ⟨haccounted.nodup, ?_, haccounted.empty, by simp [hlock]⟩
    simpa [places, gathered, shutdowns, aborted, hlock] using hplaced

theorem Accounted.conclude {answer : Option Answer} (haccounted : Accounted calls)
    (hconclude : calls.conclude = some (calls', answer)) : Accounted calls' := by
  obtain ⟨slots, skipped, hlock, -, hend⟩ := conclude_cases hconclude
  have hrunning := haccounted.locked (by simp [hlock])
  have hplaced := haccounted.placed
  rcases hend with ⟨-, -, rfl⟩ | ⟨error, -, -, -, rfl⟩
  · refine ⟨haccounted.nodup, ?_, by simp [Lifecycle.started], by simp⟩
    simpa [places, gathered, shutdowns, aborted, hlock, Lifecycle.started,
      haccounted.empty hrunning] using hplaced
  · refine ⟨haccounted.nodup, ?_, haccounted.empty, fun _ ↦ hrunning⟩
    simpa [places, gathered, shutdowns, aborted, hlock, haccounted.empty hrunning] using hplaced

theorem Accounted.fail {answer : Option Answer} (haccounted : Accounted calls)
    (hfail : calls.fail = some (calls', answer)) : Accounted calls' := by
  obtain ⟨error, hlock, rfl, -⟩ := fail_cases hfail
  refine ⟨haccounted.nodup, ?_, haccounted.empty, by simp⟩
  simpa [places, gathered, shutdowns, aborted, hlock] using haccounted.placed

variable [DecidableEq η]

theorem Accounted.activated {place : Nat} {outcome : Except ActivationError η}
    (haccounted : Accounted calls) (hactivated : calls.activated place outcome = some calls') :
    Accounted calls' := by
  obtain ⟨slots, skipped, hlock, hempty, hnew, rfl⟩ := activated_cases hactivated
  refine ⟨?_, ?_, haccounted.empty, fun _ ↦ haccounted.locked (by simp [hlock])⟩
  · refine List.nodup_append.mpr ⟨by cases outcome <;> simp [Lifecycle.made], haccounted.nodup, ?_⟩
    rintro handle hhandle other hother rfl
    exact hnew handle hhandle hother
  · have hplaced := haccounted.placed.append_left (Lifecycle.made [outcome])
    refine List.Perm.trans ?_ hplaced
    simp only [places, gathered, shutdowns, aborted, hlock, List.append_assoc]
    have hmade := Lifecycle.made_fill_perm hempty outcome
    simpa only [List.append_assoc] using hmade.append_right _

theorem Accounted.abandon {handle : η} {outcome : Except String Unit}
    (haccounted : Accounted calls) (habandon : calls.abandon handle outcome = some calls') :
    Accounted calls' := by
  obtain ⟨error, left, hlock, hleft, rfl⟩ := abandon_cases habandon
  refine ⟨haccounted.nodup, ?_, haccounted.empty, fun _ ↦ haccounted.locked (by simp [hlock])⟩
  refine List.Perm.trans ?_ haccounted.placed
  have herase := (List.perm_cons_erase hleft).symm.append_right calls.stops.flatten
  simp only [places, gathered, shutdowns, aborted, hlock, List.map_cons, List.singleton_append,
    List.flatten_cons]
  exact List.perm_middle.trans ((List.perm_middle.symm.trans
    (herase.append_left _)).append_right _)

theorem Accounted.shutDown {place : Nat} {handle : η} {outcome : Except String Unit}
    (haccounted : Accounted calls) (hshutDown : calls.shutDown place handle outcome = some calls') :
    Accounted calls' := by
  obtain ⟨left, hplace, hleft, rfl⟩ := shutDown_cases hshutDown
  refine ⟨haccounted.nodup, ?_, haccounted.empty, haccounted.locked⟩
  have hsplit : ∀ stops closed, places { calls with stops, closed } =
      calls.gathered ++ calls.set.endpoints ++ calls.aborted.flatten ++ stops.flatten ++
        closed.map (·.1) := by
    simp [places, gathered, shutdowns, aborted]
  have hplaced := haccounted.placed
  rw [show calls.places = _ from hsplit calls.stops calls.closed] at hplaced
  rw [hsplit, List.map_cons]
  -- the handle moves from what is left to the stops to the front of what was shut down
  have herase := (flatten_set_erase_perm hplace hleft).append_left
    (calls.gathered ++ calls.set.endpoints ++ calls.aborted.flatten)
  have hmoved := (List.perm_middle.symm.trans herase).append_right (calls.closed.map (·.1))
  exact List.perm_middle.trans (hmoved.trans hplaced)

variable {application : Application}

/-- Every action keeps the account. -/
theorem Accounted.perform {action : Action η} {answer : Option Answer}
    (haccounted : Accounted calls)
    (hperform : calls.perform? application action = some (calls', answer)) : Accounted calls' := by
  cases action with
  | start => exact haccounted.start hperform
  | activated place outcome =>
    obtain ⟨after, hafter, heq⟩ := Option.map_eq_some_iff.mp hperform
    exact (Prod.mk.inj heq).1 ▸ haccounted.activated hafter
  | conclude => exact haccounted.conclude hperform
  | abandon handle outcome =>
    obtain ⟨after, hafter, heq⟩ := Option.map_eq_some_iff.mp hperform
    exact (Prod.mk.inj heq).1 ▸ haccounted.abandon hafter
  | fail => exact haccounted.fail hperform
  | stop =>
    obtain ⟨after, hafter, heq⟩ := Option.map_eq_some_iff.mp hperform
    exact (Prod.mk.inj heq).1 ▸ haccounted.stop hafter
  | shutDown place handle outcome =>
    obtain ⟨after, hafter, heq⟩ := Option.map_eq_some_iff.mp hperform
    exact (Prod.mk.inj heq).1 ▸ haccounted.shutDown hafter

/-- So every run keeps it. -/
theorem Accounted.run {actions : List (Action η)} {answers : List Answer}
    (haccounted : Accounted calls)
    (hrun : calls.run? application actions = some (calls', answers)) : Accounted calls' := by
  induction actions generalizing calls answers with
  | nil =>
    obtain rfl : calls = calls' := (Prod.mk.inj (Option.some.inj hrun)).1
    exact haccounted
  | cons action rest ih =>
    obtain ⟨next, answer, later, hperform, hrest, -⟩ := run?_cons hrun
    exact ih (haccounted.perform hperform) hrest

/-! ### Between the beginning of a start and its answer -/

/-- A start that took the lock before has it still: the set is as it was then, and what was given
out since is in the hands of the start or shut down. -/
structure Underway (before calls : Calls η) : Prop where
  /-- The start holds the lock. -/
  locked : calls.start?.isSome
  /-- The set is as it was. -/
  unchanged : calls.set = before.set
  /-- What was given out since the lock was taken. -/
  new : ∀ handle ∈ calls.made, handle ∈ before.made ∨ handle ∈ calls.gathered ∨
    handle ∈ calls.aborted.flatten ∨ handle ∈ calls.closed.map (·.1)

/-- A start that is under way stays so until it answers. If it answers with an error, it has nothing
left in its hands. -/
theorem Underway.perform {before : Calls η} {action : Action η} {answer : Option Answer}
    (hunderway : Underway before calls)
    (hperform : calls.perform? application action = some (calls', answer)) :
    (answer = none ∧ Underway before calls') ∨ answer = some (.ok ()) ∨
      (answer.isSome ∧ calls'.set = before.set ∧ ∀ handle ∈ calls'.made,
        handle ∈ before.made ∨ handle ∈ calls'.closed.map (·.1)) := by
  obtain ⟨hlocked, hunchanged, hnew⟩ := hunderway
  cases action with
  | start => simp [(start_cases hperform).1] at hlocked
  | activated place outcome =>
    obtain ⟨after, hafter, heq⟩ := Option.map_eq_some_iff.mp hperform
    obtain ⟨rfl, rfl⟩ := Prod.mk.inj heq
    obtain ⟨slots, skipped, hlock, hempty, -, rfl⟩ := activated_cases hafter
    refine .inl ⟨rfl, rfl, hunchanged, fun handle hhandle ↦ ?_⟩
    have hgathered := (Lifecycle.made_fill_perm hempty outcome).mem_iff (a := handle)
    rcases List.mem_append.mp hhandle with hmade | hmade
    · exact .inr (.inl (hgathered.mpr (List.mem_append_left _ hmade)))
    · have hold := hnew handle hmade
      simp only [gathered, aborted, hlock] at hold ⊢
      rw [hgathered, List.mem_append]
      tauto
  | conclude =>
    obtain ⟨slots, skipped, hlock, -, ⟨-, rfl, -⟩ | ⟨error, -, -, rfl, rfl⟩⟩ :=
      conclude_cases hperform
    · exact .inr (.inl rfl)
    · refine .inl ⟨rfl, rfl, hunchanged, fun handle hhandle ↦ ?_⟩
      simpa [gathered, aborted, hlock] using hnew handle hhandle
  | abandon handle outcome =>
    obtain ⟨after, hafter, heq⟩ := Option.map_eq_some_iff.mp hperform
    obtain ⟨rfl, rfl⟩ := Prod.mk.inj heq
    obtain ⟨error, left, hlock, hleft, rfl⟩ := abandon_cases hafter
    refine .inl ⟨rfl, rfl, hunchanged, fun other hother ↦ ?_⟩
    have hold := hnew other hother
    by_cases hsame : other = handle
    · simp [hsame]
    · simpa [gathered, aborted, hlock, hsame, List.mem_erase_of_ne hsame] using hold
  | fail =>
    obtain ⟨error, hlock, rfl, rfl⟩ := fail_cases hperform
    refine .inr (.inr ⟨rfl, hunchanged, fun handle hhandle ↦ ?_⟩)
    simpa [gathered, aborted, hlock] using hnew handle hhandle
  | stop =>
    obtain ⟨after, hafter, heq⟩ := Option.map_eq_some_iff.mp hperform
    simp [(stop_cases hafter).1] at hlocked
  | shutDown place handle outcome =>
    obtain ⟨after, hafter, heq⟩ := Option.map_eq_some_iff.mp hperform
    obtain ⟨rfl, rfl⟩ := Prod.mk.inj heq
    obtain ⟨left, -, -, rfl⟩ := shutDown_cases hafter
    refine .inl ⟨rfl, hlocked, hunchanged, fun other hother ↦ ?_⟩
    have hold := hnew other hother
    rw [List.map_cons, List.mem_cons]
    exact hold.imp_right (Or.imp_right (Or.imp_right .inr))

theorem Underway.run {before : Calls η} {actions : List (Action η)}
    (hunderway : Underway before calls)
    (hrun : calls.run? application actions = some (calls', [])) : Underway before calls' := by
  induction actions generalizing calls with
  | nil =>
    obtain rfl : calls = calls' := (Prod.mk.inj (Option.some.inj hrun)).1
    exact hunderway
  | cons action rest ih =>
    obtain ⟨next, answer, later, hperform, hrest, hanswers⟩ := run?_cons hrun
    obtain ⟨hanswer, rfl⟩ := List.append_eq_nil_iff.mp hanswers.symm
    obtain rfl : answer = none := by simpa using hanswer
    rcases hunderway.perform hperform with ⟨-, hnext⟩ | hok | ⟨hsome, -⟩
    · exact ih hnext hrest
    · cases hok
    · cases hsome

/-- A start that fails leaves the set as it was, and what was given out meanwhile was shut down. -/
theorem Starts.failed {error : ApplicationError}
    (hstarts : Starts application calls (.error error) calls') :
    calls'.set = calls.set ∧ ∀ handle ∈ calls'.made, handle ∉ calls.made →
      handle ∈ calls'.closed.map (·.1) := by
  cases hstarts with
  | atOnce hstart =>
    obtain ⟨-, ⟨rfl, -⟩ | ⟨-, hsilent, -⟩⟩ := start_cases hstart
    · exact ⟨rfl, fun handle hmade hnew ↦ absurd hmade hnew⟩
    · cases hsilent
  | @later begun between calls' actions last hstart hbetween hlast =>
    have hbegun : Underway calls begun := by
      obtain ⟨-, ⟨-, error, hanswer⟩ | ⟨-, -, sections, skipped, -, rfl⟩⟩ := start_cases hstart
      · cases hanswer
      · exact ⟨rfl, rfl, fun handle hmade ↦ .inl hmade⟩
    rcases (hbegun.run hbetween).perform hlast with ⟨hsilent, -⟩ | hok | ⟨-, hset, hclosed⟩
    · cases hsilent
    · cases hok
    · exact ⟨hset, fun handle hmade hnew ↦ (hclosed handle hmade).resolve_left hnew⟩

/-! ### All runs -/

theorem Accounted.count (haccounted : Accounted calls) {handle : η} (hmade : handle ∈ calls.made) :
    calls.gathered.count handle + calls.set.endpoints.count handle +
      calls.shutdowns.flatten.count handle + (calls.closed.map (·.1)).count handle = 1 := by
  have hcount := haccounted.placed.count_eq handle
  rw [List.count_eq_one_of_mem haccounted.nodup hmade] at hcount
  simpa only [places, List.count_append] using hcount

/-- In every run of starts and stops, with any outcomes of activations and shutdowns, each endpoint
that a start was given is in one place: in the hands of the start that holds the lock and gathers
its endpoints, held by the set, left to one pending shutdown, or shut down once. A set that does not
run holds no endpoint. A start on a set that runs is refused and changes nothing. A start that fails
for whatever reason leaves the set as it was, and has shut down each endpoint that it was given. -/
theorem endpoints_owned_once {actions : List (Action η)} {answers : List Answer}
    (hrun : run? application actions ({} : Calls η) = some (calls, answers)) :
    (∀ handle ∈ calls.made,
      calls.gathered.count handle + calls.set.endpoints.count handle +
        calls.shutdowns.flatten.count handle + (calls.closed.map (·.1)).count handle = 1) ∧
    (calls.gathered ≠ [] → ∃ slots skipped, calls.start? = some (.activating slots skipped)) ∧
    (calls.set.running = false → calls.set.endpoints = []) ∧
    (calls.set.running = true →
      calls.perform? application .start = some (calls, some (.error .alreadyRunning))) ∧
    (∀ error calls', Starts application calls (.error error) calls' →
      calls'.set = calls.set ∧ ∀ handle ∈ calls'.made, handle ∉ calls.made →
        (calls'.closed.map (·.1)).count handle = 1) := by
  have haccounted := accounted_initial.run hrun
  refine ⟨fun handle ↦ haccounted.count, fun hgathered ↦ ?_, haccounted.empty, fun hrunning ↦ ?_,
    fun error calls' hstarts ↦ ?_⟩
  · unfold gathered at hgathered
    split at hgathered
    · rename_i slots skipped hlock
      exact ⟨slots, skipped, hlock⟩
    · exact absurd rfl hgathered
  · have hlock : calls.start? = none := by
      rw [Option.eq_none_iff_forall_ne_some]
      intro phase hphase
      simp [haccounted.locked (by simp [hphase])] at hrunning
    simp [perform?, start, hlock, hrunning]
  · obtain ⟨hset, hclosed⟩ := hstarts.failed
    refine ⟨hset, fun handle hmade hnew ↦ ?_⟩
    have hlater : Accounted calls' := by
      cases hstarts with
      | atOnce hstart => exact haccounted.perform hstart
      | later hstart hbetween hlast =>
        exact ((haccounted.perform hstart).run hbetween).perform hlast
    have hcount := hlater.count hmade
    have hpositive := List.count_pos_iff.mpr (hclosed handle hmade hnew)
    omega

/-- An application with two sections, each for a probe. -/
def relay : Application where
  config := { components := [("audit", .table []), ("orders", .table [])] }
  registry := { entries :=
    [("audit", ⟨{ id := "audit", indexed := by decide +kernel }, .probe {}⟩),
      ("orders", ⟨{ id := "orders", indexed := by decide +kernel }, .probe {}⟩)] }

/-- A set that was started, after one failure, and is being stopped: one endpoint is shut down and
one is left to the stop. The next start fails, and shuts its endpoint down while the stop is not
done. -/
theorem endpoints_owned_once_relay :
    let failure : ActivationError := .factory "orders" (.other "no route")
    let actions : List (Action Nat) :=
      [.start, .activated 1 (.error failure), .activated 0 (.ok 1), .conclude,
        .abandon 1 (.error "gone"), .fail, .start, .activated 0 (.ok 2), .activated 1 (.ok 3),
        .conclude, .start, .stop, .shutDown 0 3 (.ok ())]
    let calls : Calls Nat :=
      { stops := [[2]], made := [3, 2, 1], closed := [(3, .ok ()), (1, .error "gone")] }
    let after : Calls Nat :=
      { calls with made := [4, 3, 2, 1], closed := (4, .ok ()) :: calls.closed }
    run? relay actions ({} : Calls Nat) =
        some (calls, [.error (.activation failure), .ok (), .error .alreadyRunning]) ∧
      (calls.gathered.count 2 + calls.set.endpoints.count 2 + calls.shutdowns.flatten.count 2 +
        (calls.closed.map (·.1)).count 2 = 1) ∧
      calls.set.endpoints = [] ∧ Starts relay calls (.error (.activation failure)) after ∧
      after.set = calls.set ∧ (after.closed.map (·.1)).count 4 = 1 := by
  intro failure actions calls after
  have hrun : run? relay actions ({} : Calls Nat) =
      some (calls, [.error (.activation failure), .ok (), .error .alreadyRunning]) := rfl
  obtain ⟨hplaces, -, hempty, -, hfailed⟩ := endpoints_owned_once hrun
  have hstarts : Starts relay calls (.error (.activation failure)) after := by
    let begun : Calls Nat := { calls with start? := some (.activating [none, none] 0) }
    let left : Calls Nat := { after with start? := some (.aborting failure []) }
    have hstart : calls.perform? relay .start = some (begun, none) := rfl
    have hbetween : run? relay [.activated 0 (.ok 4), .activated 1 (.error failure), .conclude,
        .abandon 4 (.ok ())] begun = some (left, []) := rfl
    have hlast : left.perform? relay .fail =
        some (after, some (.error (.activation failure))) := rfl
    exact .later hstart hbetween hlast
  obtain ⟨hset, hclosed⟩ := hfailed _ after hstarts
  exact ⟨hrun, hplaces 2 (by decide), hempty rfl, hstarts, hset, hclosed 4 (by decide) (by decide)⟩

end Calls

end Connectors
