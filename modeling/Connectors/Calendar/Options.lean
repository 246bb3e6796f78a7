import Connectors.Schema.Basic

/-!
# Options of the calendar stream

What `google-calendar-stream` declares: the calendar and which of its events are fetched, and the
credentials in their three forms.
-/

set_option autoImplicit false
set_option relaxedAutoImplicit false

namespace Connectors.Calendar

/-- The id of the component. -/
def componentId : String := "google-calendar-stream"

/-- The type name under which client factories are offered. -/
def factoryType : String := "GoogleCalendarClientFactory"

/-- The concrete type of a client factory. -/
def factoryConcreteType : String :=
  "conflux_google_calendar_stream::client::GoogleCalendarClientFactory"

/-- The scope that is asked for when none is given. -/
def defaultScope : String := "https://www.googleapis.com/auth/calendar"

/-- An option that holds a truth value with a default. -/
def flag (name fallback : String) : OptionSpec :=
  { name, kind := .bool, fallback := some fallback }

/-- An option that holds a text. -/
def text (name : String) : OptionSpec :=
  { name, kind := .string }

/-- The options, in the order declared. -/
def options : List OptionSpec :=
  [text "applicationName",
    (text "calendarId").withDefault "primary",
    text "clientId",
    (flag "considerLastUpdate" "false").describedAs
      "Only fetch events updated since the last poll",
    (flag "consumeFromNow" "true").describedAs
      "Skip events that ended before the consumer started",
    (text "delegate").describedAs "User a service account acts on behalf of",
    { name := "maxResults", kind := .int, fallback := some "10" },
    (text "query").describedAs "Free text search filter",
    { name := "scopes", kind := .list, fallback := some defaultScope },
    (flag "syncFlow" "false").describedAs "Use incremental synchronization tokens",
    flag "bridgeErrorHandler" "false",
    { name := "clientFactory", kind := .object factoryType, autowired := true },
    (text "accessToken").asSecret,
    (text "clientSecret").asSecret,
    text "emailAddress",
    text "p12FileName",
    (text "refreshToken").asSecret,
    text "serviceAccountKey"]

/-- The schema before it is checked. -/
def draft : Draft :=
  { id := componentId, kind := .component, title := some "Google Calendar Stream", options }

end Connectors.Calendar
