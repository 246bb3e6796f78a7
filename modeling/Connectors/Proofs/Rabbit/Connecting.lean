import Connectors.Rabbit.Listener
import Connectors.Proofs.Sessions

/-!
# Requests to a broker

At its start a RabbitMQ connector tries a connection and declares its topology, each if its settings
ask for it. Whatever the broker does with these requests, a failure reported is that of the last one
(`checkConnection_eq_error`, `declareAll_eq_error`), and so of the start as a whole
(`connect_eq_error`): its error wraps the cause for which the broker refused the request
(`RabbitError.Wraps`), and no request follows. A declaration whose failure is tolerated ends
nothing.
-/

set_option autoImplicit false
set_option relaxedAutoImplicit false

namespace Connectors.Rabbit

open Session (Follows EndsRefused)

variable {σ : Type} {answer : BrokerRequest → σ → Except String Unit × σ}
  {settings : Settings} {world : σ} {error : RabbitError}

/-! ### Reaching the broker -/

theorem follows_checkConnection : Follows answer (checkConnection answer settings) := by
  unfold checkConnection
  split
  · refine (Session.follows_ask _).bind fun reply ↦ ?_
    cases reply <;> exact Session.follows_pure _
  · exact Session.follows_pure _

theorem follows_declareAll (tolerant : Bool) (declarations : List BrokerRequest) :
    Follows answer (declareAll answer tolerant declarations) := by
  induction declarations with
  | nil => exact Session.follows_pure _
  | cons request rest ih =>
    refine (Session.follows_ask _).bind fun reply ↦ ?_
    cases reply with
    | ok => exact ih
    | error cause =>
      cases tolerant with
      | true => exact (Session.follows_ofLogged _).bind fun _ ↦ ih
      | false => exact Session.follows_pure _

theorem follows_connect : Follows answer (connect answer settings) := by
  refine follows_checkConnection.bind fun checked ↦ ?_
  cases checked with
  | error => exact Session.follows_pure _
  | ok =>
    dsimp only
    split
    · exact follows_declareAll _ _
    · exact Session.follows_pure _

/-! ### Refused requests -/

/-- An error wraps the cause for which a broker refused a request. -/
inductive RabbitError.Wraps (cause : String) : BrokerRequest → RabbitError → Prop
  /-- The broker is not reached. -/
  | connection : Wraps cause .connect (.connection cause)
  /-- A declaration failed. -/
  | declaration {request : BrokerRequest} (hrequest : request ≠ .connect) :
      Wraps cause request (.declaration request.describe cause)

/-- A connection that is tried in vain is the only request. -/
theorem checkConnection_eq_error
    (hfails : (checkConnection answer settings world).value = .error error) :
    ∃ cause, error = .connection cause ∧
      EndsRefused answer world (checkConnection answer settings world).requests .connect cause := by
  unfold checkConnection at hfails ⊢
  split_ifs at hfails ⊢ with htested
  · simp only [Session.value_bind, Session.value_ask, Session.requests_bind,
      Session.requests_ask] at hfails ⊢
    cases hreply : (answer .connect world).1 with
    | ok => simp [hreply] at hfails
    | error cause =>
      simp only [hreply, Session.value_pure, Except.error.injEq] at hfails
      exact ⟨cause, hfails.symm, Session.endsRefused_singleton hreply⟩

/-- Declarations fail with the one that was refused last, and none is made after it. -/
theorem declareAll_eq_error {tolerant : Bool} {declarations : List BrokerRequest}
    (hfails : (declareAll answer tolerant declarations world).value = .error error) :
    ∃ request ∈ declarations, ∃ cause, error = .declaration request.describe cause ∧
      EndsRefused answer world (declareAll answer tolerant declarations world).requests
        request cause := by
  induction declarations generalizing world with
  | nil => simp [declareAll] at hfails
  | cons request rest ih =>
    simp only [declareAll, Session.value_bind, Session.value_ask, Session.world_ask,
      Session.requests_bind, Session.requests_ask] at hfails ⊢
    cases hreply : (answer request world).1 with
    | ok =>
      simp only [hreply] at hfails ⊢
      obtain ⟨refused, hrefused, cause, rfl, hends⟩ := ih hfails
      exact ⟨refused, List.mem_cons_of_mem _ hrefused, cause, rfl, hends.append⟩
    | error cause =>
      cases tolerant with
      | true =>
        simp only [hreply, ↓reduceIte, Session.value_bind, Session.world_ofLogged,
          Session.requests_bind, Session.requests_ofLogged, List.nil_append] at hfails ⊢
        obtain ⟨refused, hrefused, cause, rfl, hends⟩ := ih hfails
        exact ⟨refused, List.mem_cons_of_mem _ hrefused, cause, rfl, hends.append⟩
      | false =>
        simp only [hreply, Bool.false_eq_true, ↓reduceIte, Session.value_pure,
          Session.requests_pure, List.append_nil, Except.error.injEq] at hfails ⊢
        exact ⟨request, List.mem_cons_self, cause, hfails.symm,
          Session.endsRefused_singleton hreply⟩

/-- Trying a connection is no declaration. -/
theorem connect_notMem_plan (settings : Settings) : BrokerRequest.connect ∉ plan settings := by
  cases hletters : settings.deadLetter with
  | none => simp [plan, hletters]
  | some letters => cases hqueue : letters.queue <;> simp [plan, hletters, DeadLetter.plan, hqueue]

/-- What fails at the start is the last request, and the error wraps the cause for which it was
refused. -/
theorem connect_eq_error (hfails : (connect answer settings world).value = .error error) :
    ∃ last cause, EndsRefused answer world (connect answer settings world).requests last cause ∧
      error.Wraps cause last := by
  have hfollows : (checkConnection answer settings world).world =
      Session.after answer (checkConnection answer settings world).requests world :=
    follows_checkConnection world
  simp only [connect, Session.value_bind, Session.requests_bind] at hfails ⊢
  cases hchecked : (checkConnection answer settings world).value with
  | error fault =>
    simp only [hchecked, Session.value_pure, Except.error.injEq, Session.requests_pure,
      List.append_nil] at hfails ⊢
    obtain ⟨cause, rfl, hends⟩ := checkConnection_eq_error hchecked
    exact ⟨.connect, cause, hends, hfails ▸ .connection⟩
  | ok checked =>
    simp only [hchecked] at hfails ⊢
    split_ifs at hfails ⊢ with hdeclares
    obtain ⟨request, hrequest, cause, rfl, hends⟩ := declareAll_eq_error hfails
    rw [hfollows] at hends
    refine ⟨request, cause, ?_, .declaration ?_⟩
    · rw [hfollows]
      exact hends.append
    · rintro rfl
      exact connect_notMem_plan settings hrequest

end Connectors.Rabbit
