import Connectors.Calendar.Stream
import Connectors.Proofs.Registry.Built
import Mathlib.Data.List.Infix
import Mathlib.Data.List.MinMax

/-!
# What a calendar stream asks for

A stream that was started keeps three things between polls (`Progress`): the time of its start, the
time of the latest change and the last token. After any answers, pages or errors in any order, the
first is as it was, the second is the latest of the changes of all events so far and the third is
the last token that a page carried, each only if the settings call for it
(`Stream.progress_afterAll`).

The query of the next poll follows from the settings and the progress alone. So what each poll of a
run asks for is known from the pages before it (`Stream.queries_over_time`).
-/

set_option autoImplicit false
set_option relaxedAutoImplicit false

namespace Connectors.Calendar

/-! ### The latest of several times -/

@[simp] theorem later_none (time : Option Instant) : later time none = time := by
  cases time <;> rfl

@[simp] theorem none_later (time : Option Instant) : later none time = time := by
  cases time <;> rfl

theorem later_assoc (first second third : Option Instant) :
    later (later first second) third = later first (later second third) := by
  cases first <;> cases second <;> cases third <;> simp [later, max_assoc]

/-- The later of two times does not come before the first one. -/
theorem le_later {first : Option Instant} {time : Instant} (hfirst : first = some time)
    (second : Option Instant) : ∃ next, later first second = some next ∧ time ≤ next := by
  subst hfirst
  cases second with
  | none => exact ⟨time, rfl, le_rfl⟩
  | some other => exact ⟨max time other, rfl, le_max_left _ _⟩

/-- The latest of some times and one that was known before. -/
theorem foldl_later (times : List Instant) (seen : Option Instant) :
    times.foldl (fun seen time ↦ later seen (some time)) seen = later seen times.max? := by
  induction times generalizing seen with
  | nil => exact (later_none seen).symm
  | cons time rest ih =>
    have hrest : (time :: rest).max? = later (some time) rest.max? := by
      rw [List.max?_cons]
      cases rest.max? <;> rfl
    rw [List.foldl_cons, ih, hrest, later_assoc]

theorem max?_append (times others : List Instant) :
    (times ++ others).max? = later times.max? others.max? := by
  rw [← none_later (times ++ others).max?, ← foldl_later, List.foldl_append, foldl_later,
    foldl_later, none_later]

theorem newest_eq (events : List CalendarEvent) :
    newest events = (events.map (·.updated)).max? := by
  have hfold := foldl_later (events.map (·.updated)) none
  rwa [List.foldl_map, none_later] at hfold

/-! ### Many polls -/

/-- The pages among some answers. -/
def pages (answers : List (Except String Page)) : List Page :=
  answers.filterMap Except.toOption

/-- The times at which the events of some pages were changed. -/
def changes (pages : List Page) : List Instant :=
  (pages.flatMap (·.events)).map (·.updated)

/-- The tokens of some pages. -/
def tokens (pages : List Page) : List String :=
  pages.filterMap (·.nextSyncToken)

theorem pages_append (answers more : List (Except String Page)) :
    pages (answers ++ more) = pages answers ++ pages more :=
  List.filterMap_append

theorem changes_append (pages more : List Page) :
    changes (pages ++ more) = changes pages ++ changes more := by
  rw [changes, List.flatMap_append, List.map_append, changes, changes]

theorem max?_changes_concat (pages : List Page) (page : Page) :
    (changes (pages ++ [page])).max? = later (changes pages).max? (newest page.events) := by
  rw [changes_append, max?_append, newest_eq, changes, changes, List.flatMap_singleton]

theorem getLast?_tokens_concat (pages : List Page) (page : Page) :
    (tokens (pages ++ [page])).getLast? = page.nextSyncToken.or (tokens pages).getLast? := by
  rw [tokens, tokens, List.filterMap_append, List.getLast?_append, List.filterMap_cons]
  cases page.nextSyncToken <;> rfl

namespace Stream

/-- The stream after some answers to its polls, one after another. -/
def afterAll (stream : Stream) (answers : List (Except String Page)) : Stream :=
  answers.foldl (fun stream answer ↦ (stream.receive answer).1) stream

variable {stream : Stream}

theorem afterAll_concat (stream : Stream) (answers : List (Except String Page))
    (answer : Except String Page) :
    stream.afterAll (answers ++ [answer]) = ((stream.afterAll answers).receive answer).1 := by
  rw [afterAll, List.foldl_concat]
  rfl

theorem receive_ok (stream : Stream) (page : Page) : stream.receive (.ok page) =
    ({ stream with progress := stream.progress.after stream.settings page }, .ok page.events) := rfl

theorem afterAll_concat_error (stream : Stream) (answers : List (Except String Page))
    (cause : String) : stream.afterAll (answers ++ [.error cause]) = stream.afterAll answers := by
  rw [afterAll_concat]
  rfl

@[simp] theorem settings_afterAll (stream : Stream) (answers : List (Except String Page)) :
    (stream.afterAll answers).settings = stream.settings := by
  induction answers using List.reverseRecOn with
  | nil => rfl
  | append_singleton answers answer ih =>
    rw [afterAll_concat]
    cases answer <;> exact ih

/-- What a stream keeps between polls: the time that it has from its start, the latest of the
changes so far and the last token so far, the latter two only if the settings call for them. -/
theorem progress_afterAll {timeMin : Option Instant} (hfresh : stream.progress = { timeMin })
    (answers : List (Except String Page)) : (stream.afterAll answers).progress =
      { timeMin
        lastUpdate :=
          if stream.settings.considerLastUpdate then (changes (pages answers)).max? else none
        syncToken :=
          if stream.settings.syncFlow then (tokens (pages answers)).getLast? else none } := by
  induction answers using List.reverseRecOn with
  | nil => simpa [afterAll, pages, changes, tokens] using hfresh
  | append_singleton answers answer ih =>
    cases answer with
    | error cause =>
      have hpages : pages [.error cause] = [] := rfl
      rw [afterAll_concat_error, pages_append, hpages, List.append_nil, ih]
    | ok page =>
      have hpages : pages [.ok page] = [page] := rfl
      rw [afterAll_concat, receive_ok, pages_append, hpages, max?_changes_concat,
        getLast?_tokens_concat, settings_afterAll, ih, Progress.after]
      by_cases hsync : stream.settings.syncFlow = true <;>
        by_cases hupdates : stream.settings.considerLastUpdate = true <;> simp [hsync, hupdates]

/-! ### From the start -/

variable {σ : Type} {answer : ClientRequest → σ → Except String Unit × σ} {now : Instant}
  {config : Bound} {world : σ}

/-- A stream that was started has the time of its start, if it leaves earlier events out, and
nothing else. -/
theorem started (hstart : (start answer now config world).value = .ok stream) :
    stream.progress = { timeMin := if stream.settings.consumeFromNow then some now else none } := by
  unfold start at hstart
  cases hprepare : prepare config with
  | error error => simp [hprepare] at hstart
  | ok prepared =>
    obtain ⟨settings, factory⟩ := prepared
    simp only [hprepare, Session.value_bind, Session.value_ask] at hstart
    cases hreply : (answer ⟨factory, settings.credentials, settings.scopes,
        settings.applicationName⟩ world).1 with
    | error cause => simp [hreply] at hstart
    | ok made =>
      simp only [hreply, Session.value_pure, Except.ok.injEq] at hstart
      rw [← hstart]

/-- What the polls of a stream ask for, after any answers to those before. With the latest change
and without tokens, a poll asks for what was changed since the latest change of all events so far,
which never goes back. With tokens it passes on the last one that a page carried, and nothing else
narrows it. Without tokens it passes none, and asks for what ends after the start if earlier events
are left out. A poll that fails leaves the next query as it was, and one that succeeds gives the
events of the page as they are. -/
theorem queries_over_time (hstart : (start answer now config world).value = .ok stream) :
    let query (answers : List (Except String Page)) : Query := (stream.afterAll answers).nextQuery
    (stream.settings.considerLastUpdate = true → stream.settings.syncFlow = false → ∀ answers,
      (query answers).updatedMin = (changes (pages answers)).max? ∧
        ∀ more time, (query answers).updatedMin = some time →
          ∃ next, (query (answers ++ more)).updatedMin = some next ∧ time ≤ next) ∧
      (stream.settings.syncFlow = true → ∀ answers,
        (query answers).syncToken = (tokens (pages answers)).getLast? ∧
          (query answers).query = none ∧ (query answers).timeMin = none ∧
          (query answers).updatedMin = none) ∧
      (stream.settings.syncFlow = false → ∀ answers, (query answers).syncToken = none ∧
        (query answers).timeMin = if stream.settings.consumeFromNow then some now else none) ∧
      (stream.settings.considerLastUpdate = false → ∀ answers,
        (query answers).updatedMin = none) ∧
      (∀ answers cause, query (answers ++ [.error cause]) = query answers) ∧
      ∀ answers page, ((stream.afterAll answers).receive (.ok page)).2 = .ok page.events := by
  intro query
  have hquery : ∀ answers, query answers = stream.settings.queryAfter
      { timeMin := if stream.settings.consumeFromNow then some now else none
        lastUpdate :=
          if stream.settings.considerLastUpdate then (changes (pages answers)).max? else none
        syncToken :=
          if stream.settings.syncFlow then (tokens (pages answers)).getLast? else none } :=
    fun answers ↦ by
      rw [← progress_afterAll (started hstart) answers, ← settings_afterAll stream answers]
      rfl
  have hlatest : stream.settings.considerLastUpdate = true → stream.settings.syncFlow = false →
      ∀ answers, (query answers).updatedMin = (changes (pages answers)).max? :=
    fun hupdates hsync answers ↦ by simp [hquery, Settings.queryAfter, hupdates, hsync]
  refine ⟨fun hupdates hsync answers ↦ ⟨hlatest hupdates hsync answers, fun more time htime ↦ ?_⟩,
    fun hsync answers ↦ ?_, fun hsync answers ↦ ?_, fun hupdates answers ↦ ?_,
    fun answers cause ↦ congrArg nextQuery (afterAll_concat_error _ _ _), fun answers page ↦ rfl⟩
  · rw [hlatest hupdates hsync] at htime
    rw [hlatest hupdates hsync, pages_append, changes_append, max?_append]
    exact le_later htime _
  · simp [hquery, Settings.queryAfter, hsync]
  · simp [hquery, Settings.queryAfter, hsync]
  · cases hsync : stream.settings.syncFlow <;> simp [hquery, Settings.queryAfter, hupdates, hsync]

/-- The settings of a stream that asks for what was changed since the last page. -/
def changesOnly : Settings where
  calendarId := "primary"
  applicationName := none
  scopes := []
  maxResults := 10
  query := none
  considerLastUpdate := true
  consumeFromNow := true
  syncFlow := false
  credentials := .serviceAccountKey "key" none

/-- A page whose events are out of order, a poll that fails, an empty page and one with an earlier
event. -/
theorem queries_over_time_changes :
    let factory : ObjectRef := ⟨1, factoryType, factoryConcreteType⟩
    let config : Bound := {
      schema := {
        id := componentId
        options := [{ name := "considerLastUpdate", kind := .bool },
          { name := "serviceAccountKey", kind := .string },
          { name := "clientFactory", kind := .object factoryType }]
        indexed := by decide }
      values := [some (.bool true), some (.string "key"), some (.object factory)] }
    let answer : ClientRequest → Unit → Except String Unit × Unit := fun _ _ ↦ (.ok (), ())
    let page (times : List Instant) : Except String Page :=
      .ok ⟨times.map fun time ↦ ⟨"id", none, time⟩, some "token"⟩
    let stream : Stream := ⟨changesOnly, factory, { timeMin := some 1000 }⟩
    let query (answers : List (Except String Page)) : Query := (stream.afterAll answers).nextQuery
    (start answer 1000 config ()).value = .ok stream ∧
      (query [page [5, 7, 6], .error "throttled", page [], page [3]]).updatedMin = some 7 ∧
      (query [page [5, 7, 6], .error "throttled", page [], page [3]]).syncToken = none ∧
      (query [page [5, 7, 6], .error "throttled", page [], page [3]]).timeMin = some 1000 := by
  intro factory config answer page stream query
  have hstart : (start answer 1000 config ()).value = .ok stream := rfl
  obtain ⟨hlatest, -, htokenless, -⟩ := queries_over_time hstart
  obtain ⟨htoken, htime⟩ := htokenless rfl [page [5, 7, 6], .error "throttled", page [], page [3]]
  exact ⟨hstart, (hlatest rfl rfl _).1.trans (by decide), htoken, htime⟩

end Stream

end Connectors.Calendar
