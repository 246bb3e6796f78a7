import Connectors.Session
import Mathlib.Data.List.Basic

/-!
# What a session asks for

The value, the requests and the world of a session that is put together from smaller ones.

`Session.after` is the world after requests. A session that reaches the world through its requests
only leaves this world (`Session.Follows`), and a session put together from such sessions is one.

`Session.replies` are the replies to requests that are put one after another. If each of them may be
refused, all are granted or there is a first one that is refused
(`Session.granted_or_firstRefused`).

`Session.EndsRefused` says that the last of some requests was refused, with what cause. Requests
that come before them and other names for them make no difference (`Session.EndsRefused.append`,
`Session.EndsRefused.map`).
-/

set_option autoImplicit false
set_option relaxedAutoImplicit false

namespace Connectors.Session

variable {κ κ' σ α β ρ : Type}

/-! ### The parts of an outcome -/

section Parts

variable (first : Session κ σ α) (next : α → Session κ σ β) (value : α) (logged : Logged α)
  (answer : κ → σ → ρ × σ) (request : κ) (rename : κ → κ') (world : σ)

@[simp] theorem value_pure : ((pure value : Session κ σ α) world).value = value := rfl

@[simp] theorem requests_pure : ((pure value : Session κ σ α) world).requests = [] := rfl

@[simp] theorem value_bind :
    ((first >>= next) world).value = (next (first world).value (first world).world).value := rfl

@[simp] theorem requests_bind : ((first >>= next) world).requests =
    (first world).requests ++ (next (first world).value (first world).world).requests :=
  List.filterMap_append

@[simp] theorem world_bind :
    ((first >>= next) world).world = (next (first world).value (first world).world).world := rfl

@[simp] theorem value_ofLogged :
    ((ofLogged logged : Session κ σ α) world).value = logged.value := rfl

@[simp] theorem requests_ofLogged : ((ofLogged logged : Session κ σ α) world).requests = [] := by
  simp [ofLogged, Outcome.requests, List.filterMap_map]

@[simp] theorem world_ofLogged : ((ofLogged logged : Session κ σ α) world).world = world := rfl

@[simp] theorem value_ask : (ask answer request world).value = (answer request world).1 := rfl

@[simp] theorem requests_ask : (ask answer request world).requests = [request] := rfl

@[simp] theorem world_ask : (ask answer request world).world = (answer request world).2 := rfl

@[simp] theorem value_mapRequests :
    (mapRequests rename first world).value = (first world).value := rfl

@[simp] theorem requests_mapRequests :
    (mapRequests rename first world).requests = (first world).requests.map rename := by
  simp only [mapRequests, Outcome.requests, List.filterMap_map, List.map_filterMap]
  congr 1
  funext step
  cases step <;> rfl

@[simp] theorem world_mapRequests :
    (mapRequests rename first world).world = (first world).world := rfl

end Parts

/-! ### The world after requests -/

section After

variable {answer : κ → σ → ρ × σ} {world : σ} {rename : κ → κ'}

/-- The world after requests, each answered in the world that the one before left. -/
def after (answer : κ → σ → ρ × σ) (requests : List κ) (world : σ) : σ :=
  requests.foldl (fun world request ↦ (answer request world).2) world

theorem after_append (before requests : List κ) (world : σ) :
    after answer (before ++ requests) world = after answer requests (after answer before world) :=
  List.foldl_append

/-- Requests under other names leave the world as before, if each of them does. -/
theorem after_map {ρ' : Type} {answer' : κ' → σ → ρ' × σ}
    (hworld : ∀ request world, (answer' (rename request) world).2 = (answer request world).2)
    (requests : List κ) (world : σ) :
    after answer' (requests.map rename) world = after answer requests world := by
  unfold after
  rw [List.foldl_map]
  exact List.foldl_ext _ _ _ fun world request _ ↦ hworld request world

/-- The replies to requests, each in the world that the one before left. -/
def replies (answer : κ → σ → ρ × σ) : List κ → σ → List ρ
  | [], _ => []
  | request :: rest, world =>
    (answer request world).1 :: replies answer rest (answer request world).2

/-- Every request has its reply. -/
@[simp] theorem length_replies (requests : List κ) (world : σ) :
    (replies answer requests world).length = requests.length := by
  induction requests generalizing world with
  | nil => rfl
  | cons request rest ih => rw [replies, List.length_cons, ih, List.length_cons]

/-- A session reaches the world through its requests only. -/
def Follows (answer : κ → σ → ρ × σ) (session : Session κ σ α) : Prop :=
  ∀ world, (session world).world = after answer (session world).requests world

theorem follows_pure (value : α) : Follows answer (pure value) := fun _ ↦ rfl

theorem follows_ofLogged (logged : Logged α) : Follows answer (ofLogged logged) := fun world ↦ by
  rw [requests_ofLogged, world_ofLogged]
  rfl

theorem follows_ask (request : κ) : Follows answer (ask answer request) := fun _ ↦ rfl

theorem Follows.bind {first : Session κ σ α} {next : α → Session κ σ β}
    (hfirst : Follows answer first) (hnext : ∀ value, Follows answer (next value)) :
    Follows answer (first >>= next) := fun world ↦ by
  rw [requests_bind, world_bind, after_append, ← hfirst world]
  exact hnext _ _

theorem Follows.mapRequests {session : Session κ σ α} (hsession : Follows answer session)
    {ρ' : Type} {answer' : κ' → σ → ρ' × σ}
    (hworld : ∀ request world, (answer' (rename request) world).2 = (answer request world).2) :
    Follows answer' (session.mapRequests rename) := fun world ↦ by
  rw [requests_mapRequests, world_mapRequests, after_map hworld]
  exact hsession world

end After

/-! ### A refused request -/

section Refused

variable {answer : κ → σ → Except String ρ × σ} {world : σ} {requests : List κ} {last : κ}
  {cause : String}

/-- The last of some requests is refused: after the others, the world answers it with a cause. -/
def EndsRefused (answer : κ → σ → Except String ρ × σ) (world : σ) (requests : List κ) (last : κ)
    (cause : String) : Prop :=
  ∃ before, requests = before ++ [last] ∧ (answer last (after answer before world)).1 = .error cause

/-- All requests are granted. -/
def Granted (answer : κ → σ → Except String ρ × σ) (requests : List κ) (world : σ) : Prop :=
  ∀ reply ∈ replies answer requests world, ∃ value, reply = .ok value

/-- The first request that is refused, with those before it, which are granted. -/
structure FirstRefused (answer : κ → σ → Except String ρ × σ) (requests : List κ) (world : σ)
    (before : List κ) (last : κ) (cause : String) : Prop where
  /-- The requests begin with it and those before it. -/
  starts : before ++ [last] <+: requests
  /-- Those before it are granted. -/
  granted : Granted answer before world
  /-- It is refused for the cause. -/
  refused : (answer last (after answer before world)).1 = .error cause

theorem granted_nil : Granted answer [] world := fun _ hreply ↦ absurd hreply List.not_mem_nil

theorem granted_cons_iff {request : κ} : Granted answer (request :: requests) world ↔
    (∃ value, (answer request world).1 = .ok value) ∧
      Granted answer requests (answer request world).2 := by
  rw [Granted, replies, List.forall_mem_cons]
  exact Iff.rfl

/-- Requests are all granted, or there is a first one that is refused. -/
theorem granted_or_firstRefused (answer : κ → σ → Except String ρ × σ) (requests : List κ)
    (world : σ) :
    Granted answer requests world ∨
      ∃ before last cause, FirstRefused answer requests world before last cause := by
  induction requests generalizing world with
  | nil => exact .inl granted_nil
  | cons request rest ih =>
    cases hreply : (answer request world).1 with
    | error cause =>
      exact .inr ⟨[], request, cause, ⟨rest, rfl⟩, granted_nil, hreply⟩
    | ok value =>
      obtain hgranted | ⟨before, last, cause, ⟨others, rfl⟩, hbefore, hrefused⟩ :=
        ih (answer request world).2
      · exact .inl (granted_cons_iff.mpr ⟨⟨value, hreply⟩, hgranted⟩)
      · refine .inr ⟨request :: before, last, cause, ⟨others, rfl⟩, ?_, hrefused⟩
        exact granted_cons_iff.mpr ⟨⟨value, hreply⟩, hbefore⟩

theorem FirstRefused.not_granted {before : List κ}
    (hfirst : FirstRefused answer requests world before last cause) :
    ¬Granted answer requests world := by
  obtain ⟨⟨rest, rfl⟩, hbefore, hrefused⟩ := hfirst
  intro hgranted
  induction before generalizing world with
  | nil =>
    obtain ⟨⟨value, hvalue⟩, -⟩ := granted_cons_iff.mp hgranted
    cases hvalue.symm.trans hrefused
  | cons request before ih =>
    exact ih (granted_cons_iff.mp hbefore).2 hrefused (granted_cons_iff.mp hgranted).2

theorem endsRefused_singleton (hrefused : (answer last world).1 = .error cause) :
    EndsRefused answer world [last] last cause :=
  ⟨[], rfl, hrefused⟩

theorem EndsRefused.append {first : List κ}
    (hends : EndsRefused answer (after answer first world) requests last cause) :
    EndsRefused answer world (first ++ requests) last cause := by
  obtain ⟨before, rfl, hrefused⟩ := hends
  refine ⟨first ++ before, (List.append_assoc ..).symm, ?_⟩
  rwa [after_append]

/-- Requests under other names end as before, where the world answers them as before. -/
theorem EndsRefused.map {ρ' : Type} {answer' : κ' → σ → Except String ρ' × σ} {rename : κ → κ'}
    (hworld : ∀ request world, (answer' (rename request) world).2 = (answer request world).2)
    (hcause : ∀ request world cause, (answer request world).1 = .error cause →
      (answer' (rename request) world).1 = .error cause)
    (hends : EndsRefused answer world requests last cause) :
    EndsRefused answer' world (requests.map rename) (rename last) cause := by
  obtain ⟨before, rfl, hrefused⟩ := hends
  refine ⟨before.map rename, List.map_append, ?_⟩
  rw [after_map hworld]
  exact hcause last _ cause hrefused

end Refused

end Connectors.Session
