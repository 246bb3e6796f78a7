import Connectors.Proofs.Calendar.Polling
import Mathlib.Data.List.Nodup

/-!
# Polls of a calendar stream at the same time

Several polls of one stream may be under way at once. Each is sent with the query of its moment, and
the replies come later and in any order (`Polls.Run`). A reply is taken note of without regard to
the poll that it answers, so the stream is always as if its polls had been made one after another,
in the order in which their replies came (`Polls.Run.stream_eq`).

For the time of the latest change this order makes no difference (`Polls.lastUpdate_perm`). For the
token it does. What is stored is the token of the reply that came last of those which brought one.
That is the token of the poll sent last, of those answered with a token, exactly when that reply is
the one to this poll or brought the same token (`Polls.token_of_replies`), and so at every moment of
a run in which no reply with a token overtakes another one. A late reply to an older poll puts its
token in the place of a newer one (`Polls.token_moved_back`).
-/

set_option autoImplicit false
set_option relaxedAutoImplicit false

namespace Connectors.Calendar

/-- A reply to a poll. -/
structure Reply where
  /-- The place of the poll in the order in which polls were sent. -/
  poll : Nat
  /-- The answer. -/
  answer : Except String Page

/-- A stream with the polls that were made of it. -/
structure Polls where
  /-- The stream. -/
  stream : Stream
  /-- The queries of the polls, in the order sent. -/
  sent : List Query := []
  /-- The replies, in the order in which they came. -/
  replies : List Reply := []

namespace Polls

/-- One more poll is sent. -/
def send (polls : Polls) : Polls :=
  { polls with sent := polls.sent ++ [polls.stream.nextQuery] }

/-- The reply to a poll comes. -/
def receive (polls : Polls) (reply : Reply) : Polls :=
  { polls with
    stream := (polls.stream.receive reply.answer).1
    replies := polls.replies ++ [reply] }

/-- Whether a poll was sent and has no reply yet. -/
def Pending (polls : Polls) (poll : Nat) : Prop :=
  poll < polls.sent.length ∧ ∀ reply ∈ polls.replies, reply.poll ≠ poll

instance (polls : Polls) (poll : Nat) : Decidable (polls.Pending poll) :=
  inferInstanceAs
    (Decidable (poll < polls.sent.length ∧ ∀ reply ∈ polls.replies, reply.poll ≠ poll))

/-- What can become of a stream and its polls. -/
inductive Run (stream : Stream) : Polls → Prop
  /-- At first there are no polls. -/
  | start : Run stream { stream }
  /-- A poll may be sent at any moment. -/
  | send {polls : Polls} (hrun : Run stream polls) : Run stream polls.send
  /-- The reply to any poll that is under way may come. -/
  | receive {polls : Polls} (hrun : Run stream polls) (reply : Reply)
      (hpending : polls.Pending reply.poll) : Run stream (polls.receive reply)

/-- The tokens that replies brought, each with the poll that it answers. -/
def brought (replies : List Reply) : List (Nat × String) :=
  replies.filterMap fun reply ↦
    (reply.answer.toOption.bind (·.nextSyncToken)).map fun token ↦ (reply.poll, token)

/-- Of the polls that were answered with a token, the one that was sent last, and its token. -/
def IsNewest (replies : List Reply) (poll : Nat) (token : String) : Prop :=
  (poll, token) ∈ brought replies ∧ ∀ other ∈ brought replies, other.1 ≤ poll

variable {stream : Stream} {polls : Polls}

/-! ### The stream after a run -/

/-- The stream is as if the polls had been made one after another, in the order of their replies. -/
theorem Run.stream_eq (hrun : Run stream polls) :
    polls.stream = stream.afterAll (polls.replies.map (·.answer)) := by
  induction hrun with
  | start => rfl
  | send _ ih => exact ih
  | @receive polls _ reply _ ih =>
    rw [Polls.receive, ih, List.map_append, List.map_singleton, Stream.afterAll_concat]

/-- A poll has at most one reply. -/
theorem Run.nodup_polls (hrun : Run stream polls) : (polls.replies.map (·.poll)).Nodup := by
  induction hrun with
  | start => exact List.nodup_nil
  | send _ ih => exact ih
  | @receive polls _ reply hpending ih =>
    have hnew : reply.poll ∉ polls.replies.map (·.poll) := by
      intro hmem
      obtain ⟨earlier, hearlier, hsame⟩ := List.mem_map.mp hmem
      exact hpending.2 earlier hearlier hsame
    rw [Polls.receive, List.map_append, List.map_singleton, ← List.concat_eq_append]
    exact List.Nodup.concat hnew ih

/-- Replies in another order leave the same time of the latest change. -/
theorem lastUpdate_perm {others : Polls} {timeMin : Option Instant}
    (hfresh : stream.progress = { timeMin }) (hrun : Run stream polls) (hothers : Run stream others)
    (hperm : polls.replies.Perm others.replies) :
    polls.stream.progress.lastUpdate = others.stream.progress.lastUpdate := by
  have hpages := (hperm.map (·.answer)).filterMap Except.toOption
  have hchanges := (hpages.flatMap_right (·.events)).map (·.updated)
  have hlatest : (changes (pages (polls.replies.map (·.answer)))).max? =
      (changes (pages (others.replies.map (·.answer)))).max? := by
    ext time
    rw [List.max?_eq_some_iff, List.max?_eq_some_iff, changes, changes, pages, pages]
    simp only [hchanges.mem_iff]
  rw [hrun.stream_eq, hothers.stream_eq, Stream.progress_afterAll hfresh,
    Stream.progress_afterAll hfresh, hlatest]

/-! ### Tokens -/

theorem tokens_pages (replies : List Reply) :
    tokens (pages (replies.map (·.answer))) = (brought replies).map (·.2) := by
  rw [tokens, pages, List.filterMap_map, List.filterMap_filterMap, brought, List.map_filterMap]
  refine List.filterMap_congr fun reply _ ↦ ?_
  rw [Function.comp_apply, Option.map_map]
  exact (congrFun Option.map_id _).symm

/-- A poll brings at most one token. -/
theorem Run.nodup_brought (hrun : Run stream polls) :
    ((brought polls.replies).map (·.1)).Nodup := by
  refine hrun.nodup_polls.sublist ?_
  induction polls.replies with
  | nil => exact .refl _
  | cons reply rest ih =>
    rw [brought, List.filterMap_cons]
    cases reply.answer.toOption.bind (·.nextSyncToken) with
    | none => exact ih.cons reply.poll
    | some token => exact ih.cons_cons reply.poll

/-- The stored token is that of the last reply which brought one. -/
theorem Run.syncToken_eq {timeMin : Option Instant} (hfresh : stream.progress = { timeMin })
    (hsync : stream.settings.syncFlow = true) (hrun : Run stream polls) :
    polls.stream.progress.syncToken = (brought polls.replies).getLast?.map (·.2) := by
  rw [hrun.stream_eq, Stream.progress_afterAll hfresh, tokens_pages, List.getLast?_map]
  simp [hsync]

/-- Where no reply with a token overtakes another one, the last of them answers the newest poll. -/
theorem eq_of_inOrder {replies : List Reply} {newest last : Nat} {token held : String}
    (horder : (brought replies).Pairwise (·.1 < ·.1)) (hnewest : IsNewest replies newest token)
    (hlast : (brought replies).getLast? = some (last, held)) : last = newest := by
  obtain ⟨earlier, hearlier⟩ := List.getLast?_eq_some_iff.mp hlast
  have hbound : last ≤ newest := hnewest.2 _ (List.mem_of_getLast? hlast)
  have hmem := hnewest.1
  rw [hearlier, List.mem_append, List.mem_singleton] at hmem
  rcases hmem with hbefore | hsame
  · rw [hearlier, List.pairwise_append] at horder
    have hless : newest < last := horder.2.2 _ hbefore _ (List.mem_singleton.mpr rfl)
    omega
  · exact (Prod.mk.inj hsame).1.symm

/-- What polls of a stream with tokens store, however they overlap. After any run it is the token of
the last reply that brought one, and nothing if none did. Of the polls answered with a token let the
newest be the one sent last. Its token is stored exactly if the last reply with a token is the reply
to this poll or brought the same token, and so always where no reply with a token overtakes another
one. -/
theorem token_of_replies {σ : Type} {answer : ClientRequest → σ → Except String Unit × σ}
    {now : Instant} {config : Bound} {world : σ}
    (hstart : (start answer now config world).value = .ok stream)
    (hsync : stream.settings.syncFlow = true) (hrun : Run stream polls) :
    polls.stream.progress.syncToken = (brought polls.replies).getLast?.map (·.2) ∧
      ∀ newest token, IsNewest polls.replies newest token →
        (∀ last held, (brought polls.replies).getLast? = some (last, held) →
          (polls.stream.progress.syncToken = some token ↔ last = newest ∨ held = token)) ∧
        ((brought polls.replies).Pairwise (·.1 < ·.1) →
          polls.stream.progress.syncToken = some token) := by
  have hstored := hrun.syncToken_eq (Stream.started hstart) hsync
  refine ⟨hstored, fun newest token hnewest ↦ ?_⟩
  have hexactly : ∀ last held, (brought polls.replies).getLast? = some (last, held) →
      (polls.stream.progress.syncToken = some token ↔ last = newest ∨ held = token) := by
    intro last held hlast
    rw [hstored, hlast, Option.map_some, Option.some.injEq]
    refine ⟨.inr, fun heither ↦ heither.elim (fun hsame ↦ ?_) id⟩
    have hpair := List.inj_on_of_nodup_map hrun.nodup_brought (List.mem_of_getLast? hlast) hnewest.1
      hsame
    exact (Prod.mk.inj hpair).2
  refine ⟨hexactly, fun horder ↦ ?_⟩
  cases hlast : (brought polls.replies).getLast? with
  | none =>
    have hempty := List.getLast?_eq_none_iff.mp hlast
    exact absurd hnewest.1 (hempty ▸ List.not_mem_nil)
  | some last =>
    exact (hexactly last.1 last.2 hlast).mpr (.inl (eq_of_inOrder horder hnewest hlast))

/-- The settings of a stream that follows tokens. -/
def tokensOnly : Settings where
  calendarId := "primary"
  applicationName := none
  scopes := []
  maxResults := 10
  query := none
  considerLastUpdate := false
  consumeFromNow := false
  syncFlow := true
  credentials := .serviceAccountKey "key" none

/-- A configuration that calls for tokens. -/
def followsTokens (factory : ObjectRef) : Bound where
  schema := {
    id := componentId
    options := [{ name := "syncFlow", kind := .bool }, { name := "consumeFromNow", kind := .bool },
      { name := "serviceAccountKey", kind := .string },
      { name := "clientFactory", kind := .object factoryType }]
    indexed := by decide }
  values := [some (.bool true), some (.bool false), some (.string "key"), some (.object factory)]

/-- A page without events. -/
def emptyPage (token : Option String) : Except String Page := .ok ⟨[], token⟩

/-- Three polls are under way. The second one is answered first, then the first one without a token,
and the third one last. The token of the third one is stored. -/
theorem token_of_replies_third :
    let factory : ObjectRef := ⟨1, factoryType, factoryConcreteType⟩
    let stream : Stream := ⟨tokensOnly, factory, { timeMin := none }⟩
    let polls :=
      ((({ stream : Polls }.send.send.send.receive ⟨1, emptyPage (some "sync-1")⟩).receive
        ⟨0, emptyPage none⟩).receive ⟨2, emptyPage (some "sync-2")⟩)
    (start (fun _ _ ↦ (.ok (), ())) 1000 (followsTokens factory) ()).value = .ok stream ∧
      Run stream polls ∧ IsNewest polls.replies 2 "sync-2" ∧
      polls.stream.progress.syncToken = some "sync-2" := by
  intro factory stream polls
  have hstart : (start (fun _ _ ↦ (.ok (), ())) 1000 (followsTokens factory) ()).value =
      .ok stream := rfl
  have hrun : Run stream polls :=
    .receive (.receive (.receive (.send (.send (.send .start))) _ (by decide)) _ (by decide)) _
      (by decide)
  have hnewest : IsNewest polls.replies 2 "sync-2" := by
    rw [IsNewest]
    decide
  have horder : (brought polls.replies).Pairwise (·.1 < ·.1) := by decide
  exact ⟨hstart, hrun, hnewest,
    ((token_of_replies hstart rfl hrun).2 2 "sync-2" hnewest).2 horder⟩

/-- Two polls are under way, and the second one is answered first. The reply to the first one puts
its token in the place of the newer one, and the next poll passes on the older token. -/
theorem token_moved_back :
    let factory : ObjectRef := ⟨1, factoryType, factoryConcreteType⟩
    let stream : Stream := ⟨tokensOnly, factory, { timeMin := none }⟩
    let polls := ({ stream : Polls }.send.send.receive ⟨1, emptyPage (some "sync-2")⟩).receive
      ⟨0, emptyPage (some "sync-1")⟩
    (start (fun _ _ ↦ (.ok (), ())) 1000 (followsTokens factory) ()).value = .ok stream ∧
      stream.settings.syncFlow = true ∧ Run stream polls ∧ IsNewest polls.replies 1 "sync-2" ∧
      polls.stream.progress.syncToken = some "sync-1" ∧
      polls.stream.nextQuery.syncToken = some "sync-1" := by
  intro factory stream polls
  have hrun : Run stream polls :=
    .receive (.receive (.send (.send .start)) _ (by decide)) _ (by decide)
  have hnewest : IsNewest polls.replies 1 "sync-2" := by
    rw [IsNewest]
    decide
  exact ⟨rfl, rfl, hrun, hnewest, rfl, rfl⟩

end Polls

end Connectors.Calendar
