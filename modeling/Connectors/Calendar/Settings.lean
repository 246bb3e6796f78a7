import Connectors.Binding.Bound
import Connectors.Calendar.Options

/-!
# Settings of the calendar stream

`Credentials.ofBound` picks the first form of credentials that applies: the key of a service
account, a service account with a P12 file, or OAuth with at least one token. A form that is begun
and not completed is refused by naming the option that is missing.

`Settings.fault?` checks the range of the page size and that a search is not combined with
synchronization tokens.
-/

set_option autoImplicit false
set_option relaxedAutoImplicit false

namespace Connectors.Calendar

/-- How requests are authorized. -/
inductive Credentials where
  /-- On behalf of a user. -/
  | oauth (clientId clientSecret : String) (refreshToken accessToken : Option String)
  /-- By the key of a service account. -/
  | serviceAccountKey (key : String) (delegate : Option String)
  /-- By a service account with a P12 file. -/
  | p12 (emailAddress p12FileName : String) (delegate : Option String)
deriving DecidableEq, Repr

namespace Credentials

/-- The mark for secrets in place of a token. -/
def masked (token : Option String) : String :=
  Text.quotedOption (token.map fun _ ↦ redacted)

/-- The diagnostic form of credentials, without their secrets. -/
def describe : Credentials → String
  | oauth clientId _ refreshToken accessToken =>
    Text.record "OAuth"
      [("client_id", Text.quote clientId), ("client_secret", Text.quote redacted),
        ("refresh_token", masked refreshToken), ("access_token", masked accessToken)]
  | serviceAccountKey key delegate =>
    Text.record "ServiceAccountKey"
      [("key", Text.quote key), ("delegate", Text.quotedOption delegate)]
  | p12 emailAddress p12FileName delegate =>
    Text.record "P12"
      [("email_address", Text.quote emailAddress), ("p12_file_name", Text.quote p12FileName),
        ("delegate", Text.quotedOption delegate)]

/-- The OAuth credentials of a configuration. -/
def oauthOfBound (config : Bound) : Except BindError Credentials := do
  let clientId ← (config.string? "clientId").elim (.error (config.missing "clientId")) .ok
  let clientSecret ←
    (config.string? "clientSecret").elim (.error (config.missing "clientSecret")) .ok
  let refreshToken := config.string? "refreshToken"
  let accessToken := config.string? "accessToken"
  if refreshToken.isNone ∧ accessToken.isNone then .error (config.missing "refreshToken")
  return .oauth clientId clientSecret refreshToken accessToken

/-- The credentials of a configuration. -/
def ofBound (config : Bound) : Except BindError Credentials :=
  let delegate := config.string? "delegate"
  match config.string? "serviceAccountKey" with
  | some key => .ok (.serviceAccountKey key delegate)
  | none =>
    match config.string? "emailAddress", config.string? "p12FileName" with
    | some emailAddress, some p12FileName => .ok (.p12 emailAddress p12FileName delegate)
    | some _, none => .error (config.missing "p12FileName")
    | none, some _ => .error (config.missing "emailAddress")
    | none, none => oauthOfBound config

end Credentials

/-- The settings of a stream. -/
structure Settings where
  /-- The calendar. -/
  calendarId : String
  /-- The name the application gives itself. -/
  applicationName : Option String
  /-- What the credentials are to permit. -/
  scopes : List String
  /-- How many events a page may have. -/
  maxResults : Int
  /-- A search for events. -/
  query : Option String
  /-- Whether only events changed since the last page are fetched. -/
  considerLastUpdate : Bool
  /-- Whether events that ended before the start are left out. -/
  consumeFromNow : Bool
  /-- Whether synchronization tokens are used. -/
  syncFlow : Bool
  /-- How requests are authorized. -/
  credentials : Credentials
deriving DecidableEq, Repr

namespace Settings

/-- The settings of a configuration. -/
def ofBound (config : Bound) : Except BindError Settings :=
  (Credentials.ofBound config).map fun credentials ↦
    { calendarId := (config.string? "calendarId").getD "primary"
      applicationName := config.string? "applicationName"
      scopes := (config.list? "scopes").getD []
      maxResults := (config.int? "maxResults").getD 10
      query := config.string? "query"
      considerLastUpdate := (config.bool? "considerLastUpdate").getD false
      consumeFromNow := (config.bool? "consumeFromNow").getD true
      syncFlow := (config.bool? "syncFlow").getD false
      credentials }

/-- The most events that a page may have. -/
def maxPageSize : Int := 2500

/-- The option that is refused, if one is, and what is asked of it. -/
def fault? (settings : Settings) : Option (String × String) :=
  if ¬(1 ≤ settings.maxResults ∧ settings.maxResults ≤ maxPageSize) then
    some ("maxResults", "must be between 1 and 2500")
  else if settings.syncFlow ∧ settings.query.isSome then
    some ("query", "cannot be combined with syncFlow")
  else none

end Settings

end Connectors.Calendar
