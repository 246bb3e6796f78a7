import Connectors.Kinesis.Consumer
import Connectors.Proofs.Registry.Built
import Mathlib.Data.List.Infix
import Mathlib.Data.List.Nodup

/-!
# The shards of a consumer over time

A consumer starts with the shards of a first listing, or with the one that it was asked for
(`Consumer.started`). From then on its shards are listed again and again, and each listing may fail
or may bring anything (`Watch.follow`).

One listing keeps the consumed shards that it has, in their order, and adds those that are new, each
once and in the order listed (`Watch.refreshed_eq`); it is the one that the consumer fails at if the
strategy is `fail` and a consumed shard is gone (`Watch.observe_ok`). So a consumer of the whole
stream has the shards of the last listing that did not fail (`Watch.mem_follow_iff`), and the
consumer of one shard has that shard up to the first listing without it and nothing afterwards
(`Watch.follow_single`). It has failed when some listing so far lacked a shard that was consumed at
that time (`Watch.failed_follow_iff`), and the listings after that one, which are not asked for any
more, change nothing (`Watch.follow_of_failed`).

`Consumer.shards_over_time` puts these together for a consumer that was started.
-/

set_option autoImplicit false
set_option relaxedAutoImplicit false

namespace Connectors.Kinesis

namespace Watch

variable {settings : Settings} {watch : Watch} {shard : String} {shards listed : List String}
  {listings : List (Except String (List String))}

/-! ### One listing -/

/-- New shards come after those consumed, each at its first place in the listing. -/
theorem takeUp_eq (shards listed : List String) :
    takeUp shards listed = shards ++ (listed.filter (· ∉ shards)).eraseDups := by
  induction listed generalizing shards with
  | nil => simp [takeUp]
  | cons shard rest ih =>
    rw [takeUp, List.filter_cons]
    by_cases hshard : shard ∈ shards
    · simp [hshard, ih]
    · have hothers : (rest.filter (· ∉ shards)).filter (fun other ↦ !other == shard) =
          rest.filter (· ∉ shards ++ [shard]) := by
        rw [List.filter_filter]
        refine List.filter_congr fun other _ ↦ ?_
        simp [not_or, Bool.and_comm, beq_eq_decide]
      simp only [List.contains_eq_mem, hshard, decide_false, not_false_eq_true, decide_true,
        if_true, Bool.false_eq_true, if_false]
      rw [ih, List.eraseDups_cons, hothers, List.append_assoc, List.singleton_append]

theorem nodup_takeUp (hshards : shards.Nodup) (listed : List String) :
    (takeUp shards listed).Nodup := by
  induction listed generalizing shards with
  | nil => exact hshards
  | cons shard rest ih =>
    rw [takeUp]
    split_ifs with hshard
    · exact ih hshards
    · refine ih (hshards.append (List.nodup_singleton shard) ?_)
      simpa using hshard

/-- What a consumer of the whole stream consumes after a listing: the shards that stay, in their
order, and then the new ones, in the order listed. -/
theorem refreshed_eq (watch : Watch) (listed : List String) : watch.refreshed true listed =
    watch.shards.filter (· ∈ listed) ++ (listed.filter (· ∉ watch.shards)).eraseDups := by
  have hkept : watch.shards.filter listed.contains = watch.shards.filter (· ∈ listed) :=
    List.filter_congr fun _ _ ↦ List.contains_eq_mem _ _
  have hnew : listed.filter (· ∉ watch.shards.filter (· ∈ listed)) =
      listed.filter (· ∉ watch.shards) :=
    List.filter_congr fun other hother ↦ by simp [hother]
  rw [refreshed, if_pos rfl, takeUp_eq, hkept, hnew]

theorem mem_refreshed_iff : shard ∈ watch.refreshed true listed ↔ shard ∈ listed := by
  rw [refreshed_eq, List.mem_append, List.mem_eraseDups]
  by_cases hshard : shard ∈ watch.shards <;> simp [hshard]

theorem nodup_refreshed (hwatch : watch.shards.Nodup) (followNew : Bool) (listed : List String) :
    (watch.refreshed followNew listed).Nodup := by
  have hkept := hwatch.filter listed.contains
  cases followNew with
  | false => exact hkept
  | true => exact nodup_takeUp hkept listed

/-- A listing that lacks a consumed shard is the one that a consumer with the strategy `fail` fails
at; the shards are brought up to date all the same. -/
theorem observe_ok (hwatch : watch.failed = false) (settings : Settings) (listed : List String) :
    (watch.observe settings (.ok listed)).value =
      ⟨watch.refreshed settings.shardId.isNone listed,
        decide (settings.shardClosed = .fail ∧ ∃ shard ∈ watch.shards, shard ∉ listed)⟩ := by
  have hclosed : watch.closed listed = [] ↔ ¬ ∃ shard ∈ watch.shards, shard ∉ listed := by
    simp [closed, List.filter_eq_nil_iff]
  cases hstrategy : settings.shardClosed with
  | ignore => simp [observe, hwatch, hstrategy]
  | silent => simp [observe, hwatch, hstrategy]
  | fail =>
    cases hshards : watch.closed listed with
    | nil => simp [observe, hwatch, hstrategy, hshards, hclosed.mp hshards]
    | cons first others =>
      have hlacks : ∃ shard ∈ watch.shards, shard ∉ listed := by
        by_contra hnone
        rw [hclosed.mpr hnone] at hshards
        cases hshards
      simp [observe, hwatch, hstrategy, hshards, hlacks]

/-- A listing that fails is reported and changes nothing. -/
theorem observe_error (hwatch : watch.failed = false) (settings : Settings) (cause : String) :
    watch.observe settings (.error cause) = ⟨[.warn "Failed to refresh shard list"
      [("stream", settings.streamName), ("error", cause)]], watch⟩ := by
  simp [observe, hwatch]

theorem observe_of_failed (hwatch : watch.failed = true) (settings : Settings)
    (listing : Except String (List String)) : watch.observe settings listing = ⟨[], watch⟩ := by
  simp [observe, hwatch]

/-! ### Many listings -/

/-- The shards after some listings, one after another. -/
def follow (settings : Settings) (watch : Watch) (listings : List (Except String (List String))) :
    Watch :=
  listings.foldl (fun watch listing ↦ (watch.observe settings listing).value) watch

theorem follow_concat (settings : Settings) (watch : Watch)
    (listings : List (Except String (List String))) (listing : Except String (List String)) :
    watch.follow settings (listings ++ [listing]) =
      ((watch.follow settings listings).observe settings listing).value := by
  rw [follow, List.foldl_concat]
  rfl

theorem follow_append (settings : Settings) (watch : Watch)
    (listings more : List (Except String (List String))) :
    watch.follow settings (listings ++ more) =
      (watch.follow settings listings).follow settings more :=
  List.foldl_append

/-- A consumer that has failed stays as it is. -/
theorem follow_of_failed (hwatch : watch.failed = true) (settings : Settings)
    (listings : List (Except String (List String))) : watch.follow settings listings = watch := by
  induction listings with
  | nil => rfl
  | cons listing rest ih =>
    rw [follow, List.foldl_cons, observe_of_failed hwatch]
    exact ih

theorem nodup_follow (hwatch : watch.shards.Nodup) (settings : Settings)
    (listings : List (Except String (List String))) :
    (watch.follow settings listings).shards.Nodup := by
  induction listings using List.reverseRecOn with
  | nil => exact hwatch
  | append_singleton listings listing ih =>
    rw [follow_concat]
    cases hfailed : (watch.follow settings listings).failed with
    | true => rwa [observe_of_failed hfailed]
    | false =>
      cases listing with
      | error cause => rwa [observe_error hfailed]
      | ok listed =>
        rw [observe_ok hfailed]
        exact nodup_refreshed ih _ listed

/-- The last listing that did not fail, where `first` was the first one. -/
def lastListed (first : List String) (listings : List (Except String (List String))) :
    List String :=
  (listings.filterMap Except.toOption).getLast?.getD first

theorem lastListed_concat_ok (first : List String) (listings : List (Except String (List String)))
    (listed : List String) : lastListed first (listings ++ [.ok listed]) = listed := by
  simp [lastListed, Except.toOption]

theorem lastListed_concat_error (first : List String)
    (listings : List (Except String (List String))) (cause : String) :
    lastListed first (listings ++ [.error cause]) = lastListed first listings := by
  simp [lastListed, Except.toOption]

/-- While it has not failed, a consumer of the whole stream consumes the shards that were listed
last. -/
theorem mem_follow_iff (hall : settings.shardId = none)
    (hfailed : (watch.follow settings listings).failed = false) :
    shard ∈ (watch.follow settings listings).shards ↔ shard ∈ lastListed watch.shards listings := by
  induction listings using List.reverseRecOn with
  | nil => rfl
  | append_singleton listings listing ih =>
    have hbefore : (watch.follow settings listings).failed = false := by
      by_contra htrue
      rw [follow_append, follow_of_failed (by simpa using htrue)] at hfailed
      exact htrue hfailed
    rw [follow_concat]
    cases listing with
    | error cause => rw [observe_error hbefore, lastListed_concat_error, ih hbefore]
    | ok listed => rw [observe_ok hbefore, lastListed_concat_ok, hall, Option.isNone_none,
        mem_refreshed_iff]

/-- A consumer has failed when a listing lacked a shard that was consumed at that time. -/
theorem failed_follow_iff (hwatch : watch.failed = false) :
    (watch.follow settings listings).failed = true ↔ settings.shardClosed = .fail ∧
      ∃ before listed, before ++ [.ok listed] <+: listings ∧
        ∃ shard ∈ (watch.follow settings before).shards, shard ∉ listed := by
  induction listings using List.reverseRecOn with
  | nil => simp [follow, hwatch]
  | append_singleton listings listing ih =>
    rw [follow_concat]
    simp only [List.prefix_concat_iff, or_and_right, exists_or, and_or_left, ← ih]
    cases hfailed : (watch.follow settings listings).failed with
    | true => simp [observe_of_failed hfailed, hfailed]
    | false =>
      cases listing with
      | error cause => simp [observe_error hfailed, hfailed]
      | ok listed => simp [observe_ok hfailed]

/-- The consumer of one shard has it until a listing lacks it, and no shard from then on. -/
theorem follow_single (hsingle : settings.shardId = some shard)
    (listings : List (Except String (List String))) :
    (follow settings ⟨[shard], false⟩ listings = ⟨[shard], false⟩ ∧
        ∀ listed, .ok listed ∈ listings → shard ∈ listed) ∨
      ((follow settings ⟨[shard], false⟩ listings).shards = [] ∧
        ∃ listed, .ok listed ∈ listings ∧ shard ∉ listed) := by
  induction listings using List.reverseRecOn with
  | nil => exact .inl ⟨rfl, by simp⟩
  | append_singleton listings listing ih =>
    rw [follow_concat]
    rcases ih with ⟨hwatch, hhas⟩ | ⟨hshards, listed, hlisted, hlacks⟩
    · rw [hwatch]
      cases listing with
      | error cause =>
        rw [observe_error rfl]
        exact .inl ⟨rfl, by simpa using hhas⟩
      | ok listed =>
        rw [observe_ok rfl]
        by_cases hshard : shard ∈ listed
        · refine .inl ⟨by simp [refreshed, hsingle, hshard], fun other hother ↦ ?_⟩
          rcases List.mem_append.mp hother with hother | hother
          · exact hhas other hother
          · simp_all
        · exact .inr ⟨by simp [refreshed, hsingle, hshard], listed, by simp, hshard⟩
    · refine .inr ⟨?_, listed, List.mem_append_left _ hlisted, hlacks⟩
      cases hfailed : (follow settings ⟨[shard], false⟩ listings).failed with
      | true => rwa [observe_of_failed hfailed]
      | false =>
        cases listing with
        | error cause => rwa [observe_error hfailed]
        | ok other =>
          rw [observe_ok hfailed]
          simp [refreshed, hsingle, hshards]

end Watch

/-! ### From the start -/

namespace Consumer

variable {σ : Type} {answer : Listing → σ → Except String (List String) × σ} {config : Bound}
  {world : σ} {consumer : Consumer} {first : List String}

/-- A consumer is selected from a listing: with all its shards, or with the one that was asked
for. -/
theorem select_eq_ok {settings : Settings} {client : ObjectRef}
    {listing : Except String (List String)}
    (hselect : select settings client listing = .ok consumer) :
    ∃ listed, listing = .ok listed ∧
      consumer = ⟨settings, client, ⟨settings.shardId.elim listed fun shard ↦ [shard], false⟩⟩ := by
  cases listing with
  | error cause => cases hselect
  | ok listed =>
    refine ⟨listed, rfl, ?_⟩
    rw [select] at hselect
    cases hshard : settings.shardId with
    | none =>
      simp only [hshard] at hselect
      exact (Except.ok.inj hselect).symm
    | some shard =>
      simp only [hshard] at hselect
      split_ifs at hselect
      exact (Except.ok.inj hselect).symm

/-- A consumer that was started consumes all shards of the first listing, or the one that was asked
for. -/
theorem started (hstart : (start answer config world).value = .ok consumer)
    (hfirst : (answer ⟨consumer.client, consumer.settings.streamName⟩ world).1 = .ok first) :
    consumer.watch = ⟨consumer.settings.shardId.elim first fun shard ↦ [shard], false⟩ := by
  unfold start at hstart
  cases hprepare : prepare config with
  | error error => simp [hprepare] at hstart
  | ok prepared =>
    obtain ⟨settings, client⟩ := prepared
    simp only [hprepare, Session.value_bind, Session.value_pure] at hstart
    obtain ⟨listed, hlisted, rfl⟩ := select_eq_ok hstart
    obtain rfl := Except.ok.inj (hlisted.symm.trans hfirst)
    rfl

/-- The shards of a consumer over time, from a first listing without repetitions and over any later
ones. No shard is consumed twice. A consumer of the whole stream has, while it has not failed, the
shards of the last listing that did not fail: those that stayed in their order, then the new ones as
they are listed. The consumer of one shard has that shard until a listing lacks it, and none from
then on. A consumer has failed when the strategy is `fail` and a listing lacked a shard that was
consumed then; from then on nothing changes. A listing that fails is reported once and changes
nothing. -/
theorem shards_over_time (hstart : (start answer config world).value = .ok consumer)
    (hfirst : (answer ⟨consumer.client, consumer.settings.streamName⟩ world).1 = .ok first)
    (hnodup : first.Nodup) :
    let settings := consumer.settings
    let after := consumer.watch.follow settings
    (∀ listings, (after listings).shards.Nodup) ∧
      (settings.shardId = none → ∀ listings, (after listings).failed = false →
        (∀ shard, shard ∈ (after listings).shards ↔ shard ∈ Watch.lastListed first listings) ∧
        ∀ listed, (after (listings ++ [.ok listed])).shards =
          (after listings).shards.filter (· ∈ listed) ++
            (listed.filter (· ∉ (after listings).shards)).eraseDups) ∧
      (∀ shard, settings.shardId = some shard → ∀ listings,
        ((∀ listed, .ok listed ∈ listings → shard ∈ listed) → (after listings).shards = [shard]) ∧
        ((∃ listed, .ok listed ∈ listings ∧ shard ∉ listed) → (after listings).shards = [])) ∧
      (∀ listings, (after listings).failed = true ↔ settings.shardClosed = .fail ∧
        ∃ before listed, before ++ [.ok listed] <+: listings ∧
          ∃ shard ∈ (after before).shards, shard ∉ listed) ∧
      (∀ listings more, (after listings).failed = true →
        after (listings ++ more) = after listings) ∧
      ∀ listings cause, (after listings).failed = false →
        (after listings).observe settings (.error cause) =
          ⟨[.warn "Failed to refresh shard list"
            [("stream", settings.streamName), ("error", cause)]], after listings⟩ := by
  intro settings after
  have hwatch := started hstart hfirst
  have hfresh : consumer.watch.failed = false := by rw [hwatch]
  have hall : settings.shardId = none → consumer.watch.shards = first := fun hall ↦ by
    rw [hwatch, hall, Option.elim_none]
  have hsingle : ∀ shard, settings.shardId = some shard → consumer.watch = ⟨[shard], false⟩ :=
    fun shard hsingle ↦ by rw [hwatch, hsingle, Option.elim_some]
  have hshards : consumer.watch.shards.Nodup := by
    cases hshard : settings.shardId with
    | none => rwa [hall hshard]
    | some shard =>
      rw [hsingle shard hshard]
      exact List.nodup_singleton shard
  refine ⟨Watch.nodup_follow hshards settings,
    fun hnone listings hfailed ↦ ⟨fun shard ↦ ?_, fun listed ↦ ?_⟩,
    fun shard hshard listings ↦ ?_, fun _ ↦ Watch.failed_follow_iff hfresh,
    fun listings more hfailed ↦ ?_,
    fun _ cause hfailed ↦ Watch.observe_error hfailed settings cause⟩
  · rw [← hall hnone]
    exact Watch.mem_follow_iff hnone hfailed
  · have hnext := Watch.follow_concat settings consumer.watch listings (.ok listed)
    rw [Watch.observe_ok hfailed, hnone] at hnext
    exact (congrArg Watch.shards hnext).trans (Watch.refreshed_eq _ _)
  · have hcases := Watch.follow_single hshard listings
    rw [← hsingle shard hshard] at hcases
    constructor
    · intro hhas
      rcases hcases with ⟨hkept, -⟩ | ⟨-, listed, hlisted, hlacks⟩
      · exact congrArg Watch.shards (hkept.trans (hsingle shard hshard))
      · exact absurd (hhas listed hlisted) hlacks
    · rintro ⟨listed, hlisted, hlacks⟩
      rcases hcases with ⟨-, hhas⟩ | ⟨hgone, -⟩
      · exact absurd (hhas listed hlisted) hlacks
      · exact hgone
  · exact (Watch.follow_append _ _ _ _).trans (Watch.follow_of_failed hfailed _ _)

/-- The settings of a consumer of a whole stream that fails when a shard is closed. -/
def strict : Settings where
  streamName := "orders"
  region := none
  endpointOverride := none
  cborEnabled := true
  iteratorType := .trimHorizon
  sequenceNumber := none
  messageTimestamp := none
  maxResultsPerRequest := 1
  shardId := none
  shardClosed := .fail
  shardMonitorInterval := none
  proxy := none
  credentials := .fromClient
  trustAllCertificates := false

/-- A listing brings a new shard twice, one fails, one lacks a shard, and one has all of them
again. -/
theorem shards_over_time_strict :
    let client : ObjectRef := ⟨1, clientType, clientConcreteType⟩
    let config : Bound := {
      schema := {
        id := componentId
        options := [text "streamName", { name := "shardClosed", kind := .enum ["ignore", "fail"] },
          { name := "amazonKinesisClient", kind := .object clientType }]
        indexed := by decide }
      values := [some (.string "orders"), some (.enum "fail"), some (.object client)] }
    let answer : Listing → Unit → Except String (List String) × Unit :=
      fun _ _ ↦ (.ok ["a", "b"], ())
    let after := Watch.follow strict ⟨["a", "b"], false⟩
    let wide : Except String (List String) := .ok ["c", "b", "c", "a"]
    let narrow : Except String (List String) := .ok ["b", "c"]
    (start answer config ()).value = .ok ⟨strict, client, ⟨["a", "b"], false⟩⟩ ∧ ["a", "b"].Nodup ∧
      (after [wide]).shards = ["a", "b"] ++ ["c"] ∧
      (after [wide, .error "throttled", narrow]).failed = true ∧
      after [wide, .error "throttled", narrow, wide] =
        after [wide, .error "throttled", narrow] := by
  intro client config answer after wide narrow
  have hstart : (start answer config ()).value = .ok ⟨strict, client, ⟨["a", "b"], false⟩⟩ := rfl
  have hnodup : ["a", "b"].Nodup := by decide
  obtain ⟨-, hall, -, hfailed, hfrozen, -⟩ := shards_over_time hstart rfl hnodup
  have hfails := (hfailed [wide, .error "throttled", narrow]).mpr
    ⟨rfl, [wide, .error "throttled"], ["b", "c"], List.prefix_rfl, "a", by decide, by decide⟩
  exact ⟨hstart, hnodup, (hall rfl [] rfl).2 _, hfails, hfrozen _ [wide] hfails⟩

end Consumer

end Connectors.Kinesis
