import Connectors.Calendar.Settings
import Connectors.Session

/-!
# The calendar stream

A stream is made in two parts. `prepare` reads and checks the settings and finds the client factory,
without any request; `start` then asks the factory for a client.

Each poll asks for one page of events. What it asks for depends on what earlier pages brought
(`Progress`): with synchronization tokens the last token, otherwise, if the settings say so, the
time of the latest change seen. `Stream.nextQuery` forms the query and `Progress.after` takes note
of a page; a poll that fails leaves the progress as it is.
-/

set_option autoImplicit false
set_option relaxedAutoImplicit false

namespace Connectors.Calendar

/-- A time, in milliseconds since the beginning of 1970. -/
abbrev Instant : Type := Int

/-- Why a stream is not made or polled. -/
inductive CalendarError where
  /-- A value of the configuration is refused. -/
  | bind (error : BindError)
  /-- An option is out of its range, or goes badly with another one. -/
  | invalidOption (option reason : String)
  /-- There is no client factory. -/
  | missingClientFactory
  /-- No client was made. -/
  | authorization (cause : String)
  /-- A request failed. -/
  | client (cause : String)
deriving DecidableEq, Repr

/-- The wording of an error. -/
def CalendarError.message : CalendarError → String
  | bind error => error.message
  | invalidOption option reason => "option '" ++ option ++ "' " ++ reason
  | missingClientFactory =>
    "no GoogleCalendarClientFactory available: set 'clientFactory' or register exactly one "
      ++ "factory bean"
  | authorization _ => "cannot build an authorized calendar client"
  | client _ => "calendar request failed"

/-- The order of the events of a page. -/
inductive EventOrder where
  /-- By the time they start. -/
  | startTime
  /-- By the time they were changed. -/
  | updated
deriving DecidableEq, Repr

/-- A request for a page of events. -/
structure Query where
  /-- The calendar. -/
  calendarId : String
  /-- How many events the page may have. -/
  maxResults : Int
  /-- Their order. -/
  orderBy : EventOrder
  /-- A search for events. -/
  query : Option String
  /-- The time before which events are left out. -/
  timeMin : Option Instant
  /-- The time of change before which events are left out. -/
  updatedMin : Option Instant
  /-- The token of an earlier page. -/
  syncToken : Option String
deriving DecidableEq, Repr

/-- An event of a calendar. -/
structure CalendarEvent where
  /-- Its id. -/
  id : String
  /-- What it is about. -/
  summary : Option String
  /-- When it was last changed. -/
  updated : Instant
deriving DecidableEq, Repr

/-- A page of events. -/
structure Page where
  /-- The events. -/
  events : List CalendarEvent
  /-- A token to continue from. -/
  nextSyncToken : Option String
deriving DecidableEq, Repr

/-- What a stream keeps between polls. -/
structure Progress where
  /-- The time of the start, if earlier events are left out. -/
  timeMin : Option Instant
  /-- The time of the latest change seen. -/
  lastUpdate : Option Instant := none
  /-- The last token that came with a page. -/
  syncToken : Option String := none
deriving DecidableEq, Repr

/-- A live stream. -/
structure Stream where
  /-- Its settings. -/
  settings : Settings
  /-- The factory that made its client. -/
  factory : ObjectRef
  /-- What it keeps between polls. -/
  progress : Progress
deriving DecidableEq, Repr

/-! ### Start -/

/-- A request for a client. -/
structure ClientRequest where
  /-- The factory it is put to. -/
  factory : ObjectRef
  /-- How requests are authorized. -/
  credentials : Credentials
  /-- What the credentials are to permit. -/
  scopes : List String
  /-- The name the application gives itself. -/
  applicationName : Option String
deriving DecidableEq, Repr

/-- What is settled before the first request: the settings and the client factory. -/
def prepare (config : Bound) : Except CalendarError (Settings × ObjectRef) :=
  match Settings.ofBound config with
  | .error error => .error (.bind error)
  | .ok settings =>
    match settings.fault? with
    | some (option, reason) => .error (.invalidOption option reason)
    | none =>
      match config.requireObject factoryConcreteType "clientFactory" with
      | .error error => .error (.bind error)
      | .ok none => .error .missingClientFactory
      | .ok (some factory) => .ok (settings, factory)

/-- Makes a stream, at the time `now`. -/
def start {σ : Type} (answer : ClientRequest → σ → Except String Unit × σ) (now : Instant)
    (config : Bound) : Session ClientRequest σ (Except CalendarError Stream) :=
  match prepare config with
  | .error error => pure (.error error)
  | .ok (settings, factory) => do
    match ← Session.ask answer
        ⟨factory, settings.credentials, settings.scopes, settings.applicationName⟩ with
    | .error cause => return .error (.authorization cause)
    | .ok () =>
      return .ok
        ⟨settings, factory, { timeMin := if settings.consumeFromNow then some now else none }⟩

/-! ### Polls -/

/-- The query that follows from the progress made. -/
def Settings.queryAfter (settings : Settings) (progress : Progress) : Query :=
  if settings.syncFlow then
    { calendarId := settings.calendarId
      maxResults := settings.maxResults
      orderBy := .startTime
      query := none
      timeMin := none
      updatedMin := none
      syncToken := progress.syncToken }
  else
    { calendarId := settings.calendarId
      maxResults := settings.maxResults
      orderBy := if settings.considerLastUpdate then .updated else .startTime
      query := settings.query
      timeMin := progress.timeMin
      updatedMin := if settings.considerLastUpdate then progress.lastUpdate else none
      syncToken := none }

/-- The later of two times that may be absent. -/
def later : Option Instant → Option Instant → Option Instant
  | some a, some b => some (max a b)
  | some a, none => some a
  | none, b => b

/-- The time of the latest change among events. -/
def newest (events : List CalendarEvent) : Option Instant :=
  events.foldl (fun seen event ↦ later seen (some event.updated)) none

/-- The progress after a page. -/
def Progress.after (settings : Settings) (progress : Progress) (page : Page) : Progress :=
  { progress with
    syncToken :=
      if settings.syncFlow then page.nextSyncToken.or progress.syncToken else progress.syncToken
    lastUpdate :=
      if settings.considerLastUpdate then later progress.lastUpdate (newest page.events)
      else progress.lastUpdate }

/-- The query of the next poll. -/
def Stream.nextQuery (stream : Stream) : Query :=
  stream.settings.queryAfter stream.progress

/-- Takes note of the answer to a poll: the stream that goes on from there, and the events. -/
def Stream.receive (stream : Stream) (answer : Except String Page) :
    Stream × Except CalendarError (List CalendarEvent) :=
  match answer with
  | .error cause => (stream, .error (.client cause))
  | .ok page =>
    ({ stream with progress := stream.progress.after stream.settings page }, .ok page.events)

/-- The address of a stream. -/
def Stream.uri (stream : Stream) : String :=
  componentId ++ ":" ++ stream.settings.calendarId

end Connectors.Calendar
