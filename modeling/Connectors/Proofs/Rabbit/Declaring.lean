import Connectors.Rabbit.Topology
import Connectors.Proofs.Sessions

/-!
# Declarations on a broker

The declarations of a topology are put to the broker one after another. If failures are tolerated
all of them are made, whatever the broker does, and each that fails is followed by its warning
(`declareAll_tolerant`). Otherwise they end with the first one that fails, and its error is the
answer (`declareAll_firstRefused`). Where none fails there is no difference (`declareAll_granted`).

What the settings call for is told request by request, each by its position (`IsPlan`), and the plan
is the one list of requests that is so (`isPlan_iff`). `declare_plan` puts this together.

In the plan nothing is bound before it is declared (`inOrder_plan`). So it is in what is asked of
the broker, which is the plan up to some point (`requests_declare`). An answer without an error
leaves no configured queue undeclared or unbound (`declared_before_bound`).

Scope. The order is one of requests. A declaration that failed and was tolerated counts as made, and
its warning is what tells that it failed.
-/

set_option autoImplicit false
set_option relaxedAutoImplicit false

namespace Connectors.Rabbit

open Session (replies after Granted FirstRefused)

variable {σ : Type} {answer : BrokerRequest → σ → Except String Unit × σ}
  {settings : Settings} {world : σ} {requests : List BrokerRequest}

/-! ### Requests one after another -/

/-- The warning about a request that failed. -/
def BrokerRequest.warning (request : BrokerRequest) (cause : String) : Event :=
  .warn ("Failed to declare " ++ request.describe ++ ", ignoring") [("error", cause)]

/-- The warning about a request with its reply, if it failed. -/
def warning? : BrokerRequest × Except String Unit → Option Event
  | (_, .ok ()) => none
  | (request, .error cause) => some (request.warning cause)

/-- What a request with its reply leaves behind where failures are tolerated. -/
def tolerated (asked : BrokerRequest × Except String Unit) : List (Session.Step BrokerRequest) :=
  .request asked.1 :: (warning? asked).toList.map .event

/-- A request that is granted is followed by the others. -/
theorem declareAll_cons (tolerant : Bool) {request : BrokerRequest} (rest : List BrokerRequest)
    (hreply : (answer request world).1 = .ok ()) :
    declareAll answer tolerant (request :: rest) world =
      let others := declareAll answer tolerant rest (answer request world).2
      ⟨.request request :: others.steps, others.value, others.world⟩ := by
  simp [declareAll, bind, Session.ask, hreply]

/-- With failures tolerated every request is put, and each that fails is followed by its warning. -/
theorem declareAll_tolerant (answer : BrokerRequest → σ → Except String Unit × σ)
    (requests : List BrokerRequest) (world : σ) : declareAll answer true requests world =
      ⟨(requests.zip (replies answer requests world)).flatMap tolerated, .ok (),
        after answer requests world⟩ := by
  induction requests generalizing world with
  | nil => rfl
  | cons request rest ih =>
    have hrest := ih (answer request world).2
    cases hreply : (answer request world).1 with
    | ok =>
      rw [declareAll_cons true rest hreply, hrest]
      simp [replies, hreply, tolerated, warning?, after]
    | error cause =>
      simp [declareAll, bind, Session.ask, hreply, hrest, replies, after, tolerated, warning?,
        Session.ofLogged, Logged.report, BrokerRequest.warning]

/-- Where no request fails all of them are put, and there is nothing to tolerate. -/
theorem declareAll_granted (tolerant : Bool) (hgranted : Granted answer requests world) :
    declareAll answer tolerant requests world =
      ⟨requests.map .request, .ok (), after answer requests world⟩ := by
  induction requests generalizing world with
  | nil => rfl
  | cons request rest ih =>
    obtain ⟨⟨_, hreply⟩, hrest⟩ := Session.granted_cons_iff.mp hgranted
    rw [declareAll_cons tolerant rest hreply, ih hrest]
    rfl

/-- Where failures are not tolerated the first one is the last request. -/
theorem declareAll_firstRefused {before : List BrokerRequest} {last : BrokerRequest}
    {cause : String} (hrefused : FirstRefused answer requests world before last cause) :
    declareAll answer false requests world =
      ⟨(before ++ [last]).map .request, .error (.declaration last.describe cause),
        after answer (before ++ [last]) world⟩ := by
  obtain ⟨⟨rest, rfl⟩, hgranted, hlast⟩ := hrefused
  induction before generalizing world with
  | nil =>
    have hreply : (answer last world).1 = .error cause := hlast
    simp [declareAll, bind, pure, Session.ask, hreply, after]
  | cons request before ih =>
    obtain ⟨⟨_, hreply⟩, hbefore⟩ := Session.granted_cons_iff.mp hgranted
    rw [List.cons_append, List.cons_append, declareAll_cons false _ hreply, ih hbefore hlast]
    rfl

/-! ### What was asked and reported -/

theorem requests_map {value : Except RabbitError Unit} :
    Session.Outcome.requests ⟨requests.map .request, value, world⟩ = requests := by
  simp [Session.Outcome.requests, List.filterMap_map]

theorem events_map {value : Except RabbitError Unit} :
    Session.Outcome.events ⟨requests.map .request, value, world⟩ = [] := by
  simp [Session.Outcome.events, List.filterMap_map]

theorem requests_flatMap (asked : List (BrokerRequest × Except String Unit))
    {value : Except RabbitError Unit} :
    Session.Outcome.requests ⟨asked.flatMap tolerated, value, world⟩ = asked.map (·.1) := by
  induction asked with
  | nil => rfl
  | cons first rest ih =>
    simp only [Session.Outcome.requests] at ih ⊢
    cases hwarning : warning? first <;> simpa [tolerated, hwarning] using ih

theorem events_flatMap (asked : List (BrokerRequest × Except String Unit))
    {value : Except RabbitError Unit} :
    Session.Outcome.events ⟨asked.flatMap tolerated, value, world⟩ = asked.filterMap warning? := by
  induction asked with
  | nil => rfl
  | cons first rest ih =>
    simp only [Session.Outcome.events] at ih ⊢
    cases hwarning : warning? first <;> simpa [tolerated, hwarning] using ih

/-- With failures tolerated the requests are all there, in order. -/
theorem requests_declareAll_tolerant (requests : List BrokerRequest) (world : σ) :
    (declareAll answer true requests world).requests = requests := by
  rw [declareAll_tolerant, requests_flatMap,
    List.map_fst_zip (Nat.le_of_eq (Session.length_replies ..).symm)]

/-! ### The plan, request by request -/

/-- The position of the first configured queue: behind the main exchange, and behind the exchange
for dead letters and their queue with its binding, as far as they are configured. -/
def Settings.firstQueue (settings : Settings) : Nat :=
  match settings.deadLetter with
  | none => 1
  | some letters => if letters.queue.isSome then 4 else 2

/-- Requests are those that settings call for, each at its position. -/
structure IsPlan (settings : Settings) (requests : List BrokerRequest) : Prop where
  /-- The main exchange comes first. -/
  exchange : requests[0]? = some (.exchange settings.exchangeName settings.exchangeType)
  /-- The exchange for dead letters follows, then their queue with its binding, for which the name
  of the queue is the key if there is no other. -/
  letters : ∀ letters, settings.deadLetter = some letters →
    requests[1]? = some (.exchange letters.exchange letters.exchangeType) ∧
    ∀ queue, letters.queue = some queue → requests[2]? = some (.queue queue none) ∧
      requests[3]? = some (.binding queue letters.exchange (letters.routingKey.getD queue))
  /-- Each configured queue follows in its turn, with the exchange for dead letters, and then its
  binding. -/
  queues : ∀ place queue, settings.queues[place]? = some queue →
    requests[settings.firstQueue + 2 * place]? =
      some (.queue queue (settings.deadLetter.map (·.exchange))) ∧
    requests[settings.firstQueue + 2 * place + 1]? =
      some (.binding queue settings.exchangeName (settings.routingKey.getD ""))
  /-- There are no others. -/
  length : requests.length = settings.firstQueue + 2 * settings.queues.length

/-- The requests before those for the configured queues. -/
def Settings.heads (settings : Settings) : List BrokerRequest :=
  .exchange settings.exchangeName settings.exchangeType ::
    settings.deadLetter.elim [] DeadLetter.plan

theorem length_heads (settings : Settings) : settings.heads.length = settings.firstQueue := by
  unfold Settings.heads Settings.firstQueue
  cases settings.deadLetter with
  | none => rfl
  | some letters => cases hqueue : letters.queue <;> simp [DeadLetter.plan, hqueue]

theorem plan_eq (settings : Settings) :
    plan settings = settings.heads ++ settings.queues.flatMap fun queue ↦
      [.queue queue (settings.deadLetter.map (·.exchange)),
        .binding queue settings.exchangeName (settings.routingKey.getD "")] :=
  rfl

/-- Where each member of a list is replaced by two, they stand at twice its position and next to
it. -/
theorem getElem?_flatMap_pair {α β : Type} (first second : α → β) (members : List α) (place : Nat) :
    (members.flatMap fun member ↦ [first member, second member])[2 * place]? =
        members[place]?.map first ∧
      (members.flatMap fun member ↦ [first member, second member])[2 * place + 1]? =
        members[place]?.map second := by
  induction members generalizing place with
  | nil => simp
  | cons member rest ih =>
    cases place with
    | zero => simp
    | succ place => simpa [Nat.mul_add] using ih place

theorem isPlan_plan (settings : Settings) : IsPlan settings (plan settings) where
  exchange := rfl
  letters := by
    intro letters hletters
    rw [plan_eq, Settings.heads, hletters]
    refine ⟨by simp [DeadLetter.plan], fun queue hqueue ↦ ?_⟩
    simp [DeadLetter.plan, hqueue]
  queues := by
    intro place queue hqueue
    have hpair := getElem?_flatMap_pair
      (fun queue ↦ BrokerRequest.queue queue (settings.deadLetter.map (·.exchange)))
      (fun queue ↦ .binding queue settings.exchangeName (settings.routingKey.getD ""))
      settings.queues place
    rw [hqueue] at hpair
    rw [plan_eq, ← length_heads, Nat.add_assoc, List.getElem?_append_right (Nat.le_add_right ..),
      List.getElem?_append_right (Nat.le_add_right ..), Nat.add_sub_cancel_left,
      Nat.add_sub_cancel_left]
    exact hpair
  length := by
    rw [plan_eq, List.length_append, length_heads, List.length_flatMap]
    simp [Nat.mul_comm]

/-- A position before the queues is that of the main exchange or of something for dead letters. -/
theorem IsPlan.getElem?_of_lt {others : List BrokerRequest} {position : Nat}
    (hplan : IsPlan settings requests) (hother : IsPlan settings others)
    (hhead : position < settings.firstQueue) : requests[position]? = others[position]? := by
  rcases Nat.eq_zero_or_pos position with rfl | hpositive
  · rw [hplan.exchange, hother.exchange]
  rw [Settings.firstQueue] at hhead
  cases hletters : settings.deadLetter with
  | none =>
    simp only [hletters] at hhead
    omega
  | some letters =>
    rw [hletters] at hhead
    obtain ⟨hexchange, hqueues⟩ := hplan.letters letters hletters
    obtain ⟨hexchange', hqueues'⟩ := hother.letters letters hletters
    cases hqueue : letters.queue with
    | none =>
      simp only [hqueue, Option.isSome_none, Bool.false_eq_true, if_false] at hhead
      obtain rfl : position = 1 := by omega
      rw [hexchange, hexchange']
    | some queue =>
      simp only [hqueue, Option.isSome_some, if_true] at hhead
      obtain ⟨hdeclared, hbound⟩ := hqueues queue hqueue
      obtain ⟨hdeclared', hbound'⟩ := hqueues' queue hqueue
      obtain rfl | rfl | rfl : position = 1 ∨ position = 2 ∨ position = 3 := by omega
      · rw [hexchange, hexchange']
      · rw [hdeclared, hdeclared']
      · rw [hbound, hbound']

/-- A later position is that of a configured queue or of its binding, or lies behind them all. -/
theorem IsPlan.getElem?_of_le {others : List BrokerRequest} {position : Nat}
    (hplan : IsPlan settings requests) (hother : IsPlan settings others)
    (hlater : settings.firstQueue ≤ position) : requests[position]? = others[position]? := by
  obtain ⟨place, hplace⟩ : ∃ place, position = settings.firstQueue + 2 * place ∨
      position = settings.firstQueue + 2 * place + 1 :=
    ⟨(position - settings.firstQueue) / 2, by omega⟩
  cases hqueue : settings.queues[place]? with
  | none =>
    have hlength := List.getElem?_eq_none_iff.mp hqueue
    have hbeyond : settings.firstQueue + 2 * settings.queues.length ≤ position := by omega
    rw [List.getElem?_eq_none (by rwa [hplan.length]),
      List.getElem?_eq_none (by rwa [hother.length])]
  | some queue =>
    obtain ⟨hdeclared, hbound⟩ := hplan.queues place queue hqueue
    obtain ⟨hdeclared', hbound'⟩ := hother.queues place queue hqueue
    rcases hplace with rfl | rfl
    · rw [hdeclared, hdeclared']
    · rw [hbound, hbound']

/-- The positions tell the whole list. -/
theorem IsPlan.unique {others : List BrokerRequest} (hplan : IsPlan settings requests)
    (hother : IsPlan settings others) : requests = others := by
  refine List.ext_getElem? fun position ↦ ?_
  rcases Nat.lt_or_ge position settings.firstQueue with hhead | hlater
  · exact hplan.getElem?_of_lt hother hhead
  · exact hplan.getElem?_of_le hother hlater

theorem isPlan_iff : IsPlan settings requests ↔ requests = plan settings :=
  ⟨fun hplan ↦ hplan.unique (isPlan_plan settings), fun hplan ↦ hplan ▸ isPlan_plan settings⟩

/-! ### Putting the plan to a broker -/

/-- What comes of putting a plan to a broker, where the plan is what the settings call for, request
by request. With failures tolerated every request of the plan is put, in order, the answer is
without an error, and every request that fails is followed by its warning. Otherwise nothing is
reported, and the requests are the whole plan, or the plan up to the first one that fails, which the
error names with its cause. So the answer is without an error exactly if none fails. -/
theorem declare_plan (answer : BrokerRequest → σ → Except String Unit × σ) (settings : Settings)
    (world : σ) :
    (∀ requests, IsPlan settings requests ↔ requests = plan settings) ∧
    (settings.ignoreDeclarationExceptions = true →
      (declare answer settings world).value = .ok () ∧
      (declare answer settings world).requests = plan settings ∧
      (declare answer settings world).events =
        ((plan settings).zip (replies answer (plan settings) world)).filterMap warning? ∧
      (declare answer settings world).steps =
        ((plan settings).zip (replies answer (plan settings) world)).flatMap tolerated) ∧
    (settings.ignoreDeclarationExceptions = false →
      (declare answer settings world).events = [] ∧
      ((declare answer settings world).value = .ok () ↔ Granted answer (plan settings) world) ∧
      (Granted answer (plan settings) world ∧
          (declare answer settings world).requests = plan settings ∨
        ∃ before last cause, FirstRefused answer (plan settings) world before last cause ∧
          (declare answer settings world).requests = before ++ [last] ∧
          ∃ error, (declare answer settings world).value = .error error ∧
            error = .declaration last.describe cause ∧
            error.message = "failed to declare " ++ last.describe)) := by
  rw [declare]
  refine ⟨fun _ ↦ isPlan_iff, fun htolerant ↦ ?_, fun hstrict ↦ ?_⟩
  · rw [htolerant]
    refine ⟨?_, requests_declareAll_tolerant _ _, ?_, ?_⟩ <;> rw [declareAll_tolerant]
    exact events_flatMap _
  · rw [hstrict]
    obtain hgranted | ⟨before, last, cause, hfirst⟩ :=
      Session.granted_or_firstRefused answer (plan settings) world
    · rw [declareAll_granted false hgranted]
      exact ⟨events_map, iff_of_true rfl hgranted, .inl ⟨hgranted, requests_map⟩⟩
    · rw [declareAll_firstRefused hfirst]
      have hfails : ¬Granted answer (plan settings) world := hfirst.not_granted
      exact ⟨events_map, iff_of_false nofun hfails,
        .inr ⟨before, last, cause, hfirst, requests_map, _, rfl, rfl, rfl⟩⟩

/-- A broker that refuses one of two queues, where both routing keys are set. With failures
tolerated the whole plan is made with one warning, and otherwise it ends there. -/
theorem declare_plan_orders :
    let refuses : BrokerRequest → Unit → Except String Unit × Unit := fun request world ↦
      match request with
      | .queue "created" _ => (.error "access refused", world)
      | _ => (.ok (), world)
    let strict : Settings := {
      exchangeName := "orders", exchangeType := .topic, routingKey := some "orders.eu"
      queues := ["created", "cancelled"]
      testConnectionOnStartup := false, autoDeclare := true, autoStartup := true
      ignoreDeclarationExceptions := false
      concurrentConsumers := 1, maxConcurrentConsumers := none, prefetchCount := 250
      shutdownTimeout := 5000, replyTimeout := 30000
      deadLetter := some ⟨"orders.dlx", .direct, some "orders.dlq", some "rejected"⟩
      retry := ⟨5, 1000, true⟩ }
    let tolerant : Settings := { strict with ignoreDeclarationExceptions := true }
    let before : List BrokerRequest :=
      [.exchange "orders" .topic, .exchange "orders.dlx" .direct, .queue "orders.dlq" none,
        .binding "orders.dlq" "orders.dlx" "rejected"]
    let refused : BrokerRequest := .queue "created" (some "orders.dlx")
    let rest : List BrokerRequest :=
      [.binding "created" "orders" "orders.eu", .queue "cancelled" (some "orders.dlx"),
        .binding "cancelled" "orders" "orders.eu"]
    IsPlan strict (before ++ refused :: rest) ∧
      tolerant.ignoreDeclarationExceptions = true ∧
      (declare refuses tolerant ()).value = .ok () ∧
      (declare refuses tolerant ()).requests = before ++ refused :: rest ∧
      (declare refuses tolerant ()).events =
        [.warn "Failed to declare queue 'created', ignoring" [("error", "access refused")]] ∧
      strict.ignoreDeclarationExceptions = false ∧
      (declare refuses strict ()).events = [] ∧
      ¬Granted refuses (plan strict) () ∧
      (declare refuses strict ()).requests = before ++ [refused] ∧
      (declare refuses strict ()).value =
        .error (.declaration "queue 'created'" "access refused") := by
  intro refuses strict tolerant before refused rest
  obtain ⟨-, htolerant, -⟩ := declare_plan refuses tolerant ()
  obtain ⟨hvalue, hrequests, hevents, -⟩ := htolerant rfl
  obtain ⟨hplan, -, hstrict⟩ := declare_plan refuses strict ()
  obtain ⟨hnone, hok, -⟩ := hstrict rfl
  have hfails : (declare refuses strict ()).value ≠ .ok () := by decide +kernel
  exact ⟨(hplan _).mpr rfl, rfl, hvalue, hrequests, hevents.trans (by decide +kernel), rfl, hnone,
    mt hok.mpr hfails, by decide +kernel, by decide +kernel⟩

/-! ### The order of the plan -/

/-- What a request needs is declared by requests before it: for a queue the exchange of its dead
letters, for a binding its queue and its exchange. -/
def Ready (before : List BrokerRequest) : BrokerRequest → Prop
  | .queue _ (some exchange) => ∃ type, .exchange exchange type ∈ before
  | .binding queue exchange _ =>
    (∃ letters, .queue queue letters ∈ before) ∧ ∃ type, .exchange exchange type ∈ before
  | _ => True

/-- Each request comes after those that it needs. -/
def InOrder (requests : List BrokerRequest) : Prop :=
  ∀ before request rest, requests = before ++ request :: rest → Ready before request

variable {before : List BrokerRequest}

theorem inOrder_nil : InOrder [] := fun before request rest hsplit ↦
  absurd hsplit.symm (List.append_ne_nil_of_right_ne_nil before (List.cons_ne_nil request rest))

/-- One more request whose needs are met. -/
theorem InOrder.concat (horder : InOrder before) (request : BrokerRequest)
    (hready : Ready before request) : InOrder (before ++ [request]) := by
  intro first next rest hsplit
  -- The one that is looked at is the new one if nothing follows it, and was there before otherwise.
  rcases List.eq_nil_or_concat rest with rfl | ⟨others, last, rfl⟩
  · obtain ⟨rfl, hlast⟩ := List.append_inj' hsplit rfl
    obtain rfl := List.singleton_inj.mp hlast
    exact hready
  · rw [List.concat_eq_append, ← List.cons_append, ← List.append_assoc] at hsplit
    obtain ⟨hbefore, -⟩ := List.append_inj' hsplit rfl
    exact horder first next others hbefore

/-- Requests that stop early come in the same order. -/
theorem InOrder.of_isPrefix (horder : InOrder requests) (hbefore : before <+: requests) :
    InOrder before := by
  obtain ⟨others, rfl⟩ := hbefore
  rintro first next rest rfl
  exact horder first next (rest ++ others) (by simp)

theorem InOrder.deadLetters {letters : DeadLetter} (horder : InOrder before) :
    InOrder (before ++ letters.plan) := by
  have hexchange := horder.concat (.exchange letters.exchange letters.exchangeType) trivial
  unfold DeadLetter.plan
  cases letters.queue with
  | none => exact hexchange
  | some queue =>
    have hqueue := hexchange.concat (.queue queue none) trivial
    have hbinding := hqueue.concat (.binding queue letters.exchange (letters.routingKey.getD queue))
      ⟨⟨none, by simp⟩, letters.exchangeType, by simp⟩
    simpa using hbinding

/-- Queues with their bindings, after the exchanges that they name. -/
theorem InOrder.queues {exchange key : String} {letters : Option String} (horder : InOrder before)
    (hexchange : ∃ type, .exchange exchange type ∈ before)
    (hletters : ∀ name ∈ letters, ∃ type, .exchange name type ∈ before) (queues : List String) :
    InOrder (before ++ queues.flatMap fun queue ↦
      [.queue queue letters, .binding queue exchange key]) := by
  induction queues generalizing before with
  | nil => simpa using horder
  | cons queue rest ih =>
    have hqueueReady : Ready before (.queue queue letters) := by
      cases letters with
      | none => trivial
      | some name => exact hletters name rfl
    have hmore : ∀ name, (∃ type, .exchange name type ∈ before) →
        ∃ type, BrokerRequest.exchange name type ∈
          before ++ [.queue queue letters, .binding queue exchange key] :=
      fun name ⟨type, hmem⟩ ↦ ⟨type, List.mem_append_left _ hmem⟩
    obtain ⟨type, htype⟩ := hexchange
    have hqueue := horder.concat _ hqueueReady
    have hbinding := hqueue.concat (.binding queue exchange key)
      ⟨⟨letters, by simp⟩, type, List.mem_append_left _ htype⟩
    rw [List.append_assoc] at hbinding
    rw [List.flatMap_cons, ← List.append_assoc]
    exact ih hbinding (hmore exchange ⟨type, htype⟩) fun name hname ↦
      hmore name (hletters name hname)

/-- In the plan each request comes after those that it needs. -/
theorem inOrder_plan (settings : Settings) : InOrder (plan settings) := by
  have hmain := inOrder_nil.concat (.exchange settings.exchangeName settings.exchangeType) trivial
  rw [plan, ← List.singleton_append, ← List.append_assoc]
  cases settings.deadLetter with
  | none => exact hmain.queues ⟨settings.exchangeType, by simp⟩ (by simp) settings.queues
  | some letters =>
    refine hmain.deadLetters.queues ⟨settings.exchangeType, by simp⟩ ?_ settings.queues
    rintro _ ⟨⟩
    exact ⟨letters.exchangeType, by simp [DeadLetter.plan]⟩

/-! ### Nothing is bound before it is declared -/

/-- What is asked is the plan up to some point, and the whole of it if the answer is without an
error. -/
theorem requests_declare (answer : BrokerRequest → σ → Except String Unit × σ) (settings : Settings)
    (world : σ) : (declare answer settings world).requests <+: plan settings ∧
      ((declare answer settings world).value = .ok () →
        (declare answer settings world).requests = plan settings) := by
  rw [declare]
  cases settings.ignoreDeclarationExceptions with
  | true =>
    rw [requests_declareAll_tolerant]
    exact ⟨List.prefix_rfl, fun _ ↦ rfl⟩
  | false =>
    obtain hgranted | ⟨before, last, cause, hfirst⟩ :=
      Session.granted_or_firstRefused answer (plan settings) world
    · rw [declareAll_granted false hgranted, requests_map]
      exact ⟨List.prefix_rfl, fun _ ↦ rfl⟩
    · rw [declareAll_firstRefused hfirst, requests_map]
      exact ⟨hfirst.starts, nofun⟩

/-- A request that fails without ending the declarations was tolerated, with its warning. -/
theorem warned_of_declare (hok : (declare answer settings world).value = .ok ())
    {asked : BrokerRequest × Except String Unit}
    (hasked : asked ∈ (plan settings).zip (replies answer (plan settings) world)) {cause : String}
    (hfails : asked.2 = .error cause) : settings.ignoreDeclarationExceptions = true ∧
      asked.1.warning cause ∈ (declare answer settings world).events := by
  obtain ⟨request, reply⟩ := asked
  obtain rfl : reply = .error cause := hfails
  rw [declare] at hok ⊢
  cases hignore : settings.ignoreDeclarationExceptions with
  | true =>
    rw [declareAll_tolerant, events_flatMap]
    exact ⟨rfl, List.mem_filterMap.mpr ⟨_, hasked, rfl⟩⟩
  | false =>
    rw [hignore] at hok
    obtain hgranted | ⟨before, last, cause, hfirst⟩ :=
      Session.granted_or_firstRefused answer (plan settings) world
    · obtain ⟨_, hreply⟩ := hgranted _ (List.of_mem_zip hasked).2
      cases hreply
    · rw [declareAll_firstRefused hfirst] at hok
      cases hok

/-- The declarations of every queue are in the plan. -/
theorem queue_mem_plan {queue : String} (hqueue : queue ∈ settings.queues) :
    .queue queue (settings.deadLetter.map (·.exchange)) ∈ plan settings ∧
      .binding queue settings.exchangeName (settings.routingKey.getD "") ∈ plan settings := by
  have hpair : ∀ request ∈ [BrokerRequest.queue queue (settings.deadLetter.map (·.exchange)),
      .binding queue settings.exchangeName (settings.routingKey.getD "")],
      request ∈ plan settings :=
    fun request hrequest ↦ List.mem_cons_of_mem _
      (List.mem_append_right _ (List.mem_flatMap.mpr ⟨queue, hqueue, hrequest⟩))
  exact ⟨hpair _ (by simp), hpair _ (by simp)⟩

/-- So are those of the queue for dead letters. -/
theorem deadLetterQueue_mem_plan {letters : DeadLetter}
    (hletters : settings.deadLetter = some letters) {queue : String}
    (hqueue : letters.queue = some queue) :
    .queue queue none ∈ plan settings ∧
      .binding queue letters.exchange (letters.routingKey.getD queue) ∈ plan settings := by
  simp [plan, hletters, DeadLetter.plan, hqueue]

/-- In what is asked of a broker, at every point, a binding comes after a declaration of its queue
and one of its exchange, and a queue with dead letters after a declaration of their exchange. If the
answer is without an error, every configured queue was declared and bound to the main exchange, and
the queue for dead letters to theirs. Each of these requests was granted, or its failure is
tolerated and there is a warning about it. -/
theorem declared_before_bound (answer : BrokerRequest → σ → Except String Unit × σ)
    (settings : Settings) (world : σ) :
    InOrder (declare answer settings world).requests ∧
      ((declare answer settings world).value = .ok () →
        (∀ queue ∈ settings.queues,
          .queue queue (settings.deadLetter.map (·.exchange)) ∈
            (declare answer settings world).requests ∧
          .binding queue settings.exchangeName (settings.routingKey.getD "") ∈
            (declare answer settings world).requests) ∧
        (∀ letters, settings.deadLetter = some letters → ∀ queue, letters.queue = some queue →
          .queue queue none ∈ (declare answer settings world).requests ∧
          .binding queue letters.exchange (letters.routingKey.getD queue) ∈
            (declare answer settings world).requests) ∧
        ∀ asked ∈ (plan settings).zip (replies answer (plan settings) world), ∀ cause,
          asked.2 = .error cause → settings.ignoreDeclarationExceptions = true ∧
            asked.1.warning cause ∈ (declare answer settings world).events) := by
  obtain ⟨hasked, hwhole⟩ := requests_declare answer settings world
  refine ⟨(inOrder_plan settings).of_isPrefix hasked, fun hok ↦ ?_⟩
  rw [hwhole hok]
  exact ⟨fun queue ↦ queue_mem_plan, fun letters hletters queue ↦ deadLetterQueue_mem_plan hletters,
    fun asked hasked cause ↦ warned_of_declare hok hasked⟩

/-- A queue that is also the one for dead letters, at a broker that refuses all bindings. The answer
is without an error since failures are tolerated. -/
theorem declared_before_bound_orders :
    let refuses : BrokerRequest → Nat → Except String Unit × Nat := fun request refused ↦
      match request with
      | .binding .. => (.error "access refused", refused + 1)
      | _ => (.ok (), refused)
    let settings : Settings := {
      exchangeName := "orders", exchangeType := .direct, routingKey := some "order"
      queues := ["orders.dlq"]
      testConnectionOnStartup := false, autoDeclare := true, autoStartup := true
      ignoreDeclarationExceptions := true
      concurrentConsumers := 1, maxConcurrentConsumers := none, prefetchCount := 250
      shutdownTimeout := 5000, replyTimeout := 30000
      deadLetter := some ⟨"orders", .fanout, some "orders.dlq", none⟩
      retry := ⟨5, 1000, true⟩ }
    let declared := (declare refuses settings 0).requests
    declared = [.exchange "orders" .direct, .exchange "orders" .fanout, .queue "orders.dlq" none,
        .binding "orders.dlq" "orders" "orders.dlq", .queue "orders.dlq" (some "orders"),
        .binding "orders.dlq" "orders" "order"] ∧
      InOrder declared ∧ (declare refuses settings 0).value = .ok () ∧
      "orders.dlq" ∈ settings.queues ∧ .binding "orders.dlq" "orders" "order" ∈ declared ∧
      BrokerRequest.warning (.binding "orders.dlq" "orders" "order") "access refused" ∈
        (declare refuses settings 0).events := by
  intro refuses settings declared
  have hok : (declare refuses settings 0).value = .ok () := by decide +kernel
  have hasked : ((.binding "orders.dlq" "orders" "order", .error "access refused") :
      BrokerRequest × Except String Unit) ∈
        (plan settings).zip (replies refuses (plan settings) 0) := by decide +kernel
  obtain ⟨horder, hdeclared⟩ := declared_before_bound refuses settings 0
  obtain ⟨hqueues, -, hwarned⟩ := hdeclared hok
  exact ⟨by decide +kernel, horder, hok, by simp [settings],
    (hqueues "orders.dlq" (by simp [settings])).2, (hwarned _ hasked "access refused" rfl).2⟩

end Connectors.Rabbit
