import Connectors.Proofs.Binding.Demands
import Connectors.Proofs.Registry.Spellings

/-!
# Credentials of a calendar stream

There are three forms of credentials, and the first that a configuration begins with is the one that
it has to complete (`demanded`): the key of a service account needs nothing else, a service account
with a P12 file needs an address and a file, and OAuth needs a client, its secret and one of two
tokens. Settings are read exactly if the form is complete, and otherwise the first part of it that
is not set is reported as missing (`Settings.checks_ofBound`). What is read is of the form chosen
(`Credentials.Chosen`), so an OAuth client has a token, and only service accounts act on behalf of
somebody.

The settings are checked once more before a client is asked for, so no client is asked for with a
page size out of its range, or for a search together with synchronization tokens (`prepare_eq_ok`).
-/

set_option autoImplicit false
set_option relaxedAutoImplicit false

namespace Connectors.Calendar

/-- The schema of calendar streams: the options declared make one. -/
def schema : Schema where
  toDraft := draft
  indexed := by decide +kernel

/-! ### Forms of credentials -/

/-- The options that a configuration has to set for its credentials, in the order in which they are
looked for. -/
def demanded (config : Bound) : List String :=
  if config.contains "serviceAccountKey" then []
  else if config.contains "emailAddress" ∨ config.contains "p12FileName" then
    ["emailAddress", "p12FileName"]
  else ["clientId", "clientSecret"] ++
    if config.contains "accessToken" then [] else ["refreshToken"]

/-- The credentials that a configuration chooses: the key of a service account, else a service
account with a P12 file, both on behalf of a delegate if there is one, else OAuth with at least one
of its tokens. -/
inductive Credentials.Chosen (config : Bound) : Credentials → Prop
  | serviceAccountKey {key : String} (hkey : config.string? "serviceAccountKey" = some key) :
      Chosen config (.serviceAccountKey key (config.string? "delegate"))
  | p12 {emailAddress p12FileName : String} (hkey : config.string? "serviceAccountKey" = none)
      (hemail : config.string? "emailAddress" = some emailAddress)
      (hfile : config.string? "p12FileName" = some p12FileName) :
      Chosen config (.p12 emailAddress p12FileName (config.string? "delegate"))
  | oauth {clientId clientSecret : String} (hkey : config.string? "serviceAccountKey" = none)
      (hemail : config.string? "emailAddress" = none) (hfile : config.string? "p12FileName" = none)
      (hclient : config.string? "clientId" = some clientId)
      (hsecret : config.string? "clientSecret" = some clientSecret)
      (htoken : (config.string? "refreshToken").isSome = true ∨
        (config.string? "accessToken").isSome = true) :
      Chosen config (.oauth clientId clientSecret (config.string? "refreshToken")
        (config.string? "accessToken"))

variable {config : Bound}

namespace Credentials

theorem checks_oauthOfBound (hobeys : config.Obeys schema) :
    config.Checks
      (["clientId", "clientSecret"] ++
        if config.contains "accessToken" then [] else ["refreshToken"])
      (oauthOfBound config) := by
  unfold oauthOfBound
  refine (hobeys.checks_string (by decide +kernel)).bind fun clientId _ ↦ ?_
  refine (hobeys.checks_string (by decide +kernel)).bind fun clientSecret _ ↦ ?_
  dsimp only
  rw [← hobeys.isSome_string? (by decide +kernel)]
  cases config.string? "accessToken" with
  | some accessToken =>
    rw [if_pos Option.isSome_some, if_neg (by simp)]
    exact Bound.checks_nil _
  | none =>
    rw [if_neg nofun]
    refine Bound.checks_cons (hobeys.isSome_string? (by decide +kernel)) (fun hnone ↦ ?_)
      fun refreshToken hrefresh ↦ ?_
    · rw [if_pos (by simp [hnone])]
      rfl
    · rw [if_neg (by simp [hrefresh])]
      exact Bound.checks_nil _

/-- Credentials are read exactly if the form that the configuration begins with is complete. -/
theorem checks_ofBound (hobeys : config.Obeys schema) :
    config.Checks (demanded config) (ofBound config) := by
  have hemail : (config.string? "emailAddress").isSome = config.contains "emailAddress" :=
    hobeys.isSome_string? (by decide +kernel)
  have hfile : (config.string? "p12FileName").isSome = config.contains "p12FileName" :=
    hobeys.isSome_string? (by decide +kernel)
  unfold ofBound demanded
  rw [← hobeys.isSome_string? (by decide +kernel)]
  cases config.string? "serviceAccountKey" with
  | some key =>
    exact Bound.checks_nil _
  | none =>
    dsimp only
    rw [if_neg nofun]
    -- Of the two parts of a service account one may be set and the other not.
    by_cases hbegun : config.contains "emailAddress" = true ∨ config.contains "p12FileName" = true
    · rw [if_pos hbegun]
      refine Bound.checks_cons hemail (fun hnone ↦ ?_) fun emailAddress haddress ↦
        Bound.checks_cons hfile (fun hnone ↦ ?_) fun p12FileName hname ↦ ?_
      · have hset : (config.string? "p12FileName").isSome = true := by
          rw [← hemail, ← hfile, hnone] at hbegun
          simpa using hbegun
        obtain ⟨p12FileName, hname⟩ := Option.isSome_iff_exists.mp hset
        rw [hnone, hname]
      · rw [haddress, hnone]
      · rw [haddress, hname]
        exact Bound.checks_nil _
    · have hneither :
          config.string? "emailAddress" = none ∧ config.string? "p12FileName" = none := by
        rw [← hemail, ← hfile] at hbegun
        simpa using hbegun
      rw [if_neg hbegun, hneither.1, hneither.2]
      exact checks_oauthOfBound hobeys

theorem oauthOfBound_eq_ok {credentials : Credentials}
    (hread : oauthOfBound config = .ok credentials) :
    ∃ clientId clientSecret, config.string? "clientId" = some clientId ∧
      config.string? "clientSecret" = some clientSecret ∧
      ((config.string? "refreshToken").isSome = true ∨
        (config.string? "accessToken").isSome = true) ∧
      credentials = .oauth clientId clientSecret (config.string? "refreshToken")
        (config.string? "accessToken") := by
  unfold oauthOfBound at hread
  obtain ⟨clientId, hclient, hread⟩ := Traversal.exists_of_bind_eq_ok hread
  obtain ⟨clientSecret, hsecret, hread⟩ := Traversal.exists_of_bind_eq_ok hread
  refine ⟨clientId, clientSecret, Bound.eq_some_of_elim hclient, Bound.eq_some_of_elim hsecret, ?_⟩
  dsimp only at hread
  split_ifs at hread with htokens
  · cases hread
  · refine ⟨?_, (Except.ok.inj hread).symm⟩
    simpa [Option.isSome_iff_ne_none, ← not_and_or] using htokens

/-- The credentials that are read are those that the configuration chooses. -/
theorem ofBound_eq_ok_iff {credentials : Credentials} :
    ofBound config = .ok credentials ↔ credentials.Chosen config := by
  constructor
  · intro hread
    unfold ofBound at hread
    dsimp only at hread
    split at hread
    · next key hkey =>
      obtain rfl := Except.ok.inj hread
      exact .serviceAccountKey hkey
    next hkey =>
    split at hread
    · next emailAddress p12FileName hemail hfile =>
      obtain rfl := Except.ok.inj hread
      exact .p12 hkey hemail hfile
    · cases hread
    · cases hread
    · next hemail hfile =>
      obtain ⟨clientId, clientSecret, hclient, hsecret, htoken, rfl⟩ := oauthOfBound_eq_ok hread
      exact .oauth hkey hemail hfile hclient hsecret htoken
  · intro hchosen
    unfold ofBound oauthOfBound
    cases hchosen with
    | serviceAccountKey hkey => simp [hkey]
    | p12 hkey hemail hfile => simp [hkey, hemail, hfile]
    | oauth hkey hemail hfile hclient hsecret htoken =>
      have htokens :
          ¬ (config.string? "refreshToken" = none ∧ config.string? "accessToken" = none) := by
        simpa [Option.isSome_iff_ne_none, ← not_and_or] using htoken
      simp [hkey, hemail, hfile, hclient, hsecret, htokens]
      rfl

end Credentials

/-! ### Settings -/

namespace Settings

/-- Settings are read exactly if the credentials are complete. -/
theorem checks_ofBound (hobeys : config.Obeys schema) :
    config.Checks (demanded config) (ofBound config) :=
  (Credentials.checks_ofBound hobeys).map _

/-- The credentials, the size of a page and the search of settings are those of the
configuration. -/
theorem parts_of_ofBound {settings : Settings} (hsettings : ofBound config = .ok settings) :
    Credentials.ofBound config = .ok settings.credentials ∧
      settings.maxResults = (config.int? "maxResults").getD 10 ∧
      settings.syncFlow = (config.bool? "syncFlow").getD false ∧
      settings.query = config.string? "query" := by
  unfold ofBound at hsettings
  cases hread : Credentials.ofBound config with
  | error error => simp [hread, Except.map] at hsettings
  | ok credentials =>
    rw [hread] at hsettings
    obtain rfl := Except.ok.inj hsettings
    exact ⟨rfl, rfl, rfl, rfl⟩

theorem fault?_eq_none_iff {settings : Settings} : settings.fault? = none ↔
    (1 ≤ settings.maxResults ∧ settings.maxResults ≤ 2500) ∧
      ¬ (settings.syncFlow = true ∧ settings.query.isSome = true) := by
  unfold fault? maxPageSize
  split_ifs with hsize hsearch
  · exact iff_of_false nofun fun hsound ↦ hsound.2 hsearch
  · exact iff_of_true rfl ⟨hsize, hsearch⟩
  · exact iff_of_false nofun fun hsound ↦ hsize hsound.1

/-- A configuration allows the settings that are read from it to be used: the size of a page is in
its range, and there is no search together with synchronization tokens. -/
def Allowed (config : Bound) : Prop :=
  (∃ maxResults, config.int? "maxResults" = some maxResults ∧ 1 ≤ maxResults ∧ maxResults ≤ 2500) ∧
    ¬ (config.bool? "syncFlow" = some true ∧ config.contains "query" = true)

theorem fault?_ofBound_eq_none_iff (hobeys : config.Obeys schema) {settings : Settings}
    (hsettings : ofBound config = .ok settings) : settings.fault? = none ↔ Allowed config := by
  obtain ⟨-, hmax, hsync, hquery⟩ := parts_of_ofBound hsettings
  have hfound : ∃ maxResults, config.int? "maxResults" = some maxResults :=
    hobeys.exists_int? (by decide +kernel)
  obtain ⟨maxResults, hsize⟩ := hfound
  have hswitch : settings.syncFlow = true ↔ config.bool? "syncFlow" = some true := by
    rw [hsync]
    cases config.bool? "syncFlow" <;> simp
  rw [hsize] at hmax
  rw [fault?_eq_none_iff, Allowed, hswitch, hquery, hobeys.isSome_string? (by decide +kernel), hmax,
    hsize]
  simp

end Settings

/-! ### Activation -/

section Activation

variable {σ : Type} {outside : Outside σ} {now : Instant} {world : σ} {settings : Settings}
  {client : ObjectRef} {answer : ClientRequest → σ → Except String Unit × σ}

theorem prepare_eq_ok (hprepare : prepare config = .ok (settings, client)) :
    Settings.ofBound config = .ok settings ∧ settings.fault? = none := by
  unfold prepare at hprepare
  split at hprepare
  · cases hprepare
  next held hsettings =>
  split at hprepare
  · cases hprepare
  next hfault =>
  split at hprepare
  · cases hprepare
  · cases hprepare
  · cases hprepare
    exact ⟨hsettings, hfault⟩

/-- Once the settings are checked, one client is asked for, with the credentials of the settings. -/
theorem requests_start (hprepare : prepare config = .ok (settings, client)) :
    (start answer now config world).requests =
      [⟨client, settings.credentials, settings.scopes, settings.applicationName⟩] := by
  simp only [start, hprepare, Session.requests_bind, Session.requests_ask, Session.value_ask]
  generalize (answer _ world).1 = reply
  cases reply <;> rfl

/-- A factory that asks for a client, or makes a stream, has checked the settings. -/
theorem exists_prepare_of_create
    (hreached : (Factory.calendar.create outside now config world).requests ≠ [] ∨
      ∃ endpoint, (Factory.calendar.create outside now config world).value.value = .ok endpoint) :
    ∃ settled, prepare config = .ok settled := by
  cases hprepare : prepare config with
  | ok settled => exact ⟨settled, rfl⟩
  | error error =>
    simp [Factory.create, start, hprepare, Except.map, Except.mapError] at hreached

end Activation

/-- Settings are read from a configuration that is bound exactly if it completes the credentials
that it begins with. Otherwise the first part of them that is not set is reported as missing, and
nothing else ever is. The credentials of settings are the ones that the configuration chooses. An
activation that asks for a client or makes a stream does so with these credentials, with pages of 1
to 2500 events, and without a search together with synchronization tokens. -/
theorem complete_credentials {binder : Binder} {raw : RawValues} {resolver : Resolver}
    {config : Bound} (hbind : (binder.bind schema raw resolver).value = .ok config) :
    ((∃ settings, Settings.ofBound config = .ok settings) ↔
      ∀ option ∈ demanded config, config.contains option = true) ∧
    (∀ error, Settings.ofBound config = .error error ↔ ∃ option,
      config.lacking? (demanded config) = some option ∧
        error = .missingRequired "google-calendar-stream" option) ∧
    (∀ settings, Settings.ofBound config = .ok settings →
      ∀ credentials : Credentials, credentials.Chosen config ↔ credentials = settings.credentials) ∧
    ∀ {σ : Type} (outside : Outside σ) now (world : σ) (registry : Registry Factory) id,
      registry.component id = .ok ⟨schema, .calendar⟩ → registry.binder = binder →
      let outcome := registry.activate outside now id raw resolver world
      outcome.requests ≠ [] ∨ (∃ activated, outcome.value.value = .ok activated) →
        Settings.Allowed config ∧ ∃ client : ClientRequest,
          outcome.requests = [.calendar client] ∧ client.credentials.Chosen config := by
  have hobeys : config.Obeys schema := Binder.obeys_of_bind hbind
  have hchecks : config.Checks (demanded config) (Settings.ofBound config) :=
    Settings.checks_ofBound hobeys
  have hcomponent : config.component = "google-calendar-stream" := congrArg (·.id) hobeys.schema_eq
  have hchosen : ∀ settings, Settings.ofBound config = .ok settings →
      ∀ credentials : Credentials, credentials.Chosen config ↔
        credentials = settings.credentials := by
    intro settings hsettings credentials
    rw [← Credentials.ofBound_eq_ok_iff, (Settings.parts_of_ofBound hsettings).1,
      Except.ok.injEq, eq_comm]
  refine ⟨hchecks.exists_ok_iff, fun error ↦ ?_, hchosen, ?_⟩
  · rw [hchecks.eq_error_iff, ← hcomponent]
    rfl
  · intro σ outside now world registry id hregistered hbinder outcome hreached
    obtain ⟨held, hheld, hmade⟩ := Registry.exists_bound_of_activate hregistered hreached
    obtain rfl : config = held := by
      rw [hbinder] at hheld
      exact Except.ok.inj (hbind.symm.trans hheld)
    obtain ⟨⟨settings, client⟩, hprepare⟩ := exists_prepare_of_create hmade
    obtain ⟨hsettings, hfault⟩ := prepare_eq_ok hprepare
    refine ⟨(Settings.fault?_ofBound_eq_none_iff hobeys hsettings).mp hfault,
      ⟨client, settings.credentials, settings.scopes, settings.applicationName⟩, ?_,
      (hchosen settings hsettings _).mpr rfl⟩
    have hrequests :
        outcome.requests = (Factory.calendar.create outside now config world).requests :=
      Registry.requests_of_bound hregistered hheld
    rw [hrequests, Factory.create, Session.requests_bind, Session.requests_mapRequests,
      requests_start hprepare, Session.requests_pure]
    rfl

/-- A stream with an access token only, and with synchronization tokens, asks for a client. With the
address of a service account as well it lacks the file of the account, though OAuth is complete. -/
theorem complete_credentials_token :
    let raw : RawValues := [("client-id", .text "id"), ("clientSecret", .text "secret"),
      ("ACCESS_TOKEN", .text "token"), ("delegate", .text "ops@example.com"),
      ("max.results", .text "2500"), ("syncFlow", .text "true")]
    let factory : ObjectRef := ⟨1, factoryType, factoryConcreteType⟩
    let resolver := (BeanRegistry.empty.insert "calendar" factory).resolver
    let config (emailAddress : Option OptionValue) : Bound := ⟨schema,
      [none, some (.string "primary"), some (.string "id"), some (.bool false), some (.bool true),
        some (.string "ops@example.com"), some (.int 2500), none, some (.list [defaultScope]),
        some (.bool true), some (.bool false), some (.object factory), some (.string "token"),
        some (.string "secret"), emailAddress, none, none, none]⟩
    let registry : Registry Factory :=
      { entries := [("googlecalendarstream", ⟨schema, .calendar⟩)] }
    let outside : Outside Nat := {
      kinesis := fun _ asked ↦ (.ok [], asked + 1)
      rabbit := fun _ asked ↦ (.ok (), asked + 1)
      calendar := fun _ asked ↦ (.ok (), asked + 1) }
    let outcome := registry.activate outside 0 "google-calendar-stream" raw resolver 0
    let address := some (OptionValue.string "svc@example.com")
    (({} : Binder).bind schema raw resolver).value = .ok (config none) ∧
      registry.component "google-calendar-stream" = .ok ⟨schema, .calendar⟩ ∧
      outcome.requests ≠ [] ∧
      (∃ client : ClientRequest, outcome.requests = [.calendar client] ∧
        client.credentials = .oauth "id" "secret" none (some "token")) ∧
      (({} : Binder).bind schema
        (("emailAddress", .text "svc@example.com") :: raw) resolver).value = .ok (config address) ∧
      Settings.ofBound (config address) =
        .error (.missingRequired "google-calendar-stream" "p12FileName") := by
  intro raw factory resolver config registry outside outcome address
  -- Names are compared many times over here, so all that is evaluated is evaluated at once.
  have hfacts : (({} : Binder).bind schema raw resolver).value = .ok (config none) ∧
      outcome.requests.length = 1 ∧
      (({} : Binder).bind schema
        (("emailAddress", .text "svc@example.com") :: raw) resolver).value = .ok (config address) ∧
      (config address).lacking? (demanded (config address)) = some "p12FileName" ∧
      (config none).string? "serviceAccountKey" = none ∧
      (config none).string? "emailAddress" = none ∧
      (config none).string? "p12FileName" = none ∧ (config none).string? "clientId" = some "id" ∧
      (config none).string? "clientSecret" = some "secret" ∧
      (config none).string? "refreshToken" = none ∧
      (config none).string? "accessToken" = some "token" := by
    decide +kernel
  obtain ⟨hbind, hlength, haddress, hlacking, hkey, hemail, hfile, hclient, hsecret, hrefresh,
    haccess⟩ := hfacts
  have hcomponent : registry.component "google-calendar-stream" = .ok ⟨schema, .calendar⟩ :=
    Registry.component_singleton (by decide +kernel) _ _ _
  have hasked : outcome.requests ≠ [] := fun hnone ↦ by simp [hnone] at hlength
  obtain ⟨-, -, hchosen, hactivation⟩ := complete_credentials hbind
  obtain ⟨-, herror, -⟩ := complete_credentials haddress
  obtain ⟨-, client, hrequests, hused⟩ :=
    hactivation outside 0 0 registry "google-calendar-stream" hcomponent rfl (.inl hasked)
  refine ⟨hbind, hcomponent, hasked, ⟨client, hrequests, ?_⟩, haddress,
    (herror _).mpr ⟨_, hlacking, rfl⟩⟩
  obtain ⟨_, credentials, _, _⟩ := client
  dsimp only at hused ⊢
  cases hused with
  | serviceAccountKey hheld => cases hheld.symm.trans hkey
  | p12 _ hheld => cases hheld.symm.trans hemail
  | oauth _ _ _ hid hshared =>
    obtain rfl := Option.some.inj (hid.symm.trans hclient)
    obtain rfl := Option.some.inj (hshared.symm.trans hsecret)
    rw [hrefresh, haccess]

end Connectors.Calendar
