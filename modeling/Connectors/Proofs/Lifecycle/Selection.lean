import Connectors.Application
import Connectors.Proofs.Sections.OneComponent

/-!
# The sections that a start activates

A start activates the sections that are switched on and have a component, in their order, and counts
the others (`Application.pending_eq_ok`). If the application is strict, the first section that is
switched on and has no component stops the start before anything is reported
(`Application.pending_eq_schema_iff`).
-/

set_option autoImplicit false
set_option relaxedAutoImplicit false

namespace Connectors

namespace Application

variable (registry : Registry Factory)

/-- Whether a start activates a section. -/
def activates (given : ComponentSection) : Bool :=
  given.enabled && registry.contains given.id

/-- Whether a section is switched on and has no component. -/
def isStray (given : ComponentSection) : Bool :=
  given.enabled && !registry.contains given.id

/-- A strict application reports nothing, and has a component for each section that it does not pass
over because that is switched off. -/
theorem select_of_strict (hstrict : registry.binder.unknownKeys = .strict)
    (sections : List ComponentSection) : select registry sections =
      ⟨[], match sections.find? (isStray registry) with
        | some given => .error (.unknownComponent given.id)
        | none => .ok (sections.filter (activates registry),
            (sections.filter (!activates registry ·)).length)⟩ := by
  induction sections with
  | nil => rfl
  | cons given rest ih =>
    rw [select, ih]
    cases henabled : given.enabled <;> cases hcontains : registry.contains given.id <;>
      cases hrest : rest.find? (isStray registry) <;>
      simp [Logged.map, Except.map, activates, isStray, henabled, hcontains, hrest, hstrict]

/-- Any other application takes what it finds. -/
theorem select_of_lenient (hlenient : registry.binder.unknownKeys ≠ .strict)
    (sections : List ComponentSection) : (select registry sections).value =
      .ok (sections.filter (activates registry),
        (sections.filter (!activates registry ·)).length) := by
  induction sections with
  | nil => rfl
  | cons given rest ih =>
    rw [select]
    cases henabled : given.enabled <;> cases hcontains : registry.contains given.id <;>
      simp [Logged.map, Except.map, activates, henabled, hcontains, hlenient, ih]

variable {application : Application} {sections chosen : List ComponentSection} {skipped : Nat}

theorem pending_eq (hsections : application.config.sections = .ok sections) :
    application.pending = (select application.registry sections).map (·.mapError .schema) := by
  rw [pending, hsections]

/-- What a start activates and how many sections it passes over. -/
theorem pending_eq_ok (hsections : application.config.sections = .ok sections)
    (hpending : application.pending.value = .ok (chosen, skipped)) :
    chosen = sections.filter (activates application.registry) ∧
      chosen.length + skipped = sections.length := by
  have hselect : (select application.registry sections).value = .ok (chosen, skipped) := by
    rw [pending_eq hsections] at hpending
    cases hvalue : (select application.registry sections).value <;>
      simp_all [Logged.map, Except.mapError]
  have hparts : (chosen, skipped) = (sections.filter (activates application.registry),
      (sections.filter (!activates application.registry ·)).length) := by
    by_cases hstrict : application.registry.binder.unknownKeys = .strict
    · rw [select_of_strict _ hstrict] at hselect
      split at hselect
      · cases hselect
      · exact (Except.ok.inj hselect).symm
    · rw [select_of_lenient _ hstrict] at hselect
      exact (Except.ok.inj hselect).symm
  obtain ⟨rfl, rfl⟩ := Prod.mk.inj hparts
  exact ⟨rfl, (List.length_eq_length_filter_add _).symm⟩

theorem pending_events_of_strict (hstrict : application.registry.binder.unknownKeys = .strict) :
    application.pending.events = [] := by
  unfold pending
  split
  · rfl
  · rw [select_of_strict _ hstrict]
    rfl

/-- A start is stopped by a missing component exactly if the application is strict and some section
is switched on and has no component. It is stopped by the first one, before anything is reported. -/
theorem pending_eq_schema_iff (hsections : application.config.sections = .ok sections)
    {reason : SchemaError} : application.pending.value = .error (.schema reason) ↔
      application.registry.binder.unknownKeys = .strict ∧ ∃ given,
        sections.find? (isStray application.registry) = some given ∧
        reason = .unknownComponent given.id := by
  rw [pending_eq hsections]
  by_cases hstrict : application.registry.binder.unknownKeys = .strict
  · rw [select_of_strict _ hstrict]
    cases hfind : sections.find? (isStray application.registry) <;>
      simp [Logged.map, Except.mapError, ApplicationError.schema, hstrict, eq_comm]
  · simp [Logged.map, select_of_lenient _ hstrict, Except.mapError, hstrict]

end Application

end Connectors
