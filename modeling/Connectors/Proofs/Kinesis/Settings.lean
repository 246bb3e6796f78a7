import Connectors.Kinesis.Settings
import Connectors.Proofs.Binding.Demands

/-!
# Settings of a consumer that are accepted

Some options of a consumer are of use only with others. `demanded` lists the options that a
configuration has to set for what it says, in the order in which they are looked for: the name of
the stream in any case, an endpoint to send requests to, a position to start at, the port of a
proxy, and what static keys consist of. Settings are read exactly if all of these are set, and
otherwise the first that is not is reported as missing (`Settings.checks_ofBound`).

Credentials come from the first source that applies (`Credentials.Chosen`).
-/

set_option autoImplicit false
set_option relaxedAutoImplicit false

namespace Connectors.Kinesis

/-- The schema of consumers: the options declared make one. -/
def schema : Schema where
  toDraft := draft
  indexed := by decide +kernel

/-! ### What a configuration calls for -/

/-- The parts of static keys that a configuration has to set: none if credentials come from a
provider or nothing is said of keys, both keys otherwise, and a token for a session. -/
def demandedKeys (config : Bound) : List String :=
  if config.bool? "useDefaultCredentialsProvider" = some true ∨
      config.bool? "useProfileCredentialsProvider" = some true then []
  else if config.contains "accessKey" ∨ config.contains "secretKey" ∨
      config.bool? "useSessionCredentials" = some true then
    ["accessKey", "secretKey"] ++
      if config.bool? "useSessionCredentials" = some true then ["sessionToken"] else []
  else []

/-- The options that a configuration has to set for what it says, in the order in which they are
looked for. -/
def demanded (config : Bound) : List String :=
  [["streamName"],
    if config.bool? "overrideEndpoint" = some true then ["uriEndpointOverride"] else [],
    if config.enum? "iteratorType" = some "AT_SEQUENCE_NUMBER" ∨
      config.enum? "iteratorType" = some "AFTER_SEQUENCE_NUMBER" then ["sequenceNumber"] else [],
    if config.enum? "iteratorType" = some "AT_TIMESTAMP" then ["messageTimestamp"] else [],
    if config.contains "proxyHost" then ["proxyPort"] else [],
    demandedKeys config].flatten

/-- The credentials that a configuration chooses: from the default provider, else from a profile,
else from static keys, which keep a token for a session only, else those of the client. -/
inductive Credentials.Chosen (config : Bound) : Credentials → Prop
  | defaultProvider (hdefault : config.bool? "useDefaultCredentialsProvider" = some true) :
      Chosen config .defaultProvider
  | profile (hdefault : config.bool? "useDefaultCredentialsProvider" ≠ some true)
      (hprofile : config.bool? "useProfileCredentialsProvider" = some true) :
      Chosen config (.profile (config.string? "profileCredentialsName"))
  | keys {accessKey secretKey : String}
      (hdefault : config.bool? "useDefaultCredentialsProvider" ≠ some true)
      (hprofile : config.bool? "useProfileCredentialsProvider" ≠ some true)
      (haccess : config.string? "accessKey" = some accessKey)
      (hsecret : config.string? "secretKey" = some secretKey)
      (hsession : config.bool? "useSessionCredentials" ≠ some true) :
      Chosen config (.static accessKey secretKey none)
  | session {accessKey secretKey token : String}
      (hdefault : config.bool? "useDefaultCredentialsProvider" ≠ some true)
      (hprofile : config.bool? "useProfileCredentialsProvider" ≠ some true)
      (haccess : config.string? "accessKey" = some accessKey)
      (hsecret : config.string? "secretKey" = some secretKey)
      (hsession : config.bool? "useSessionCredentials" = some true)
      (htoken : config.string? "sessionToken" = some token) :
      Chosen config (.static accessKey secretKey (some token))
  | fromClient (hdefault : config.bool? "useDefaultCredentialsProvider" ≠ some true)
      (hprofile : config.bool? "useProfileCredentialsProvider" ≠ some true)
      (haccess : config.string? "accessKey" = none) (hsecret : config.string? "secretKey" = none)
      (hsession : config.bool? "useSessionCredentials" ≠ some true) :
      Chosen config .fromClient

variable {config : Bound}

/-! ### Constants -/

theorem IteratorType.ofConstant?_eq_some_iff {constant : String} {type : IteratorType} :
    ofConstant? constant = some type ↔ constant = type.constant := by
  constructor
  · intro hread
    unfold ofConstant? at hread
    split at hread <;> cases hread <;> rfl
  · rintro rfl
    cases type <;> rfl

/-- Reading starts where the constant of the configuration says, where this is not the default. -/
theorem IteratorType.getD_eq_iff {constant : Option String} {type : IteratorType}
    (htype : type ≠ .trimHorizon) :
    (constant.bind ofConstant?).getD .trimHorizon = type ↔ constant = some type.constant := by
  cases constant with
  | none => simpa using htype.symm
  | some text =>
    rw [Option.bind_some, Option.some.injEq, ← ofConstant?_eq_some_iff]
    cases ofConstant? text with
    | none => simpa using htype.symm
    | some read => simp

theorem IteratorType.needsSequenceNumber_iff {type : IteratorType} :
    type.needsSequenceNumber = true ↔ type = .atSequenceNumber ∨ type = .afterSequenceNumber := by
  cases type <;> simp [needsSequenceNumber]

/-! ### Credentials -/

theorem Credentials.checks_staticOfBound (hobeys : config.Obeys schema) (session : Bool) :
    config.Checks (["accessKey", "secretKey"] ++ if session = true then ["sessionToken"] else [])
      (staticOfBound config session) := by
  unfold staticOfBound
  refine (hobeys.checks_string (by decide +kernel)).bind fun accessKey _ ↦ ?_
  refine (hobeys.checks_string (by decide +kernel)).bind fun secretKey _ ↦ ?_
  cases session with
  | true => exact (hobeys.checks_string (by decide +kernel)).bind fun token _ ↦ Bound.checks_nil _
  | false => exact Bound.checks_nil _

/-- Credentials are read exactly if the keys that are called for are set. -/
theorem Credentials.checks_ofBound (hobeys : config.Obeys schema) :
    config.Checks (demandedKeys config) (ofBound config) := by
  unfold ofBound demandedKeys
  by_cases hdefault : config.bool? "useDefaultCredentialsProvider" = some true
  · rw [if_pos hdefault, if_pos (.inl hdefault)]
    exact Bound.checks_nil _
  by_cases hprofile : config.bool? "useProfileCredentialsProvider" = some true
  · rw [if_neg hdefault, if_pos hprofile, if_pos (.inr hprofile)]
    exact Bound.checks_nil _
  rw [if_neg hdefault, if_neg hprofile, if_neg (by simp [hdefault, hprofile])]
  -- Keys are called for exactly if the configuration does not leave them to the client.
  have hclient :
      ((config.string? "accessKey").isNone = true ∧ (config.string? "secretKey").isNone = true ∧
        ¬ config.bool? "useSessionCredentials" = some true) ↔
      ¬ (config.contains "accessKey" = true ∨ config.contains "secretKey" = true ∨
        config.bool? "useSessionCredentials" = some true) := by
    rw [← hobeys.isSome_string? (by decide +kernel), ← hobeys.isSome_string? (by decide +kernel)]
    simp
  dsimp only
  by_cases hkeys : config.contains "accessKey" = true ∨ config.contains "secretKey" = true ∨
      config.bool? "useSessionCredentials" = some true
  · rw [if_pos hkeys, if_neg (mt hclient.mp (not_not.mpr hkeys))]
    simpa using checks_staticOfBound hobeys
      (decide (config.bool? "useSessionCredentials" = some true))
  · rw [if_neg hkeys, if_pos (hclient.mpr hkeys)]
    exact Bound.checks_nil _

theorem Credentials.staticOfBound_eq_ok {session : Bool} {credentials : Credentials}
    (hread : staticOfBound config session = .ok credentials) :
    ∃ accessKey secretKey, config.string? "accessKey" = some accessKey ∧
      config.string? "secretKey" = some secretKey ∧
      (session = false ∧ credentials = .static accessKey secretKey none ∨
        session = true ∧ ∃ token, config.string? "sessionToken" = some token ∧
          credentials = .static accessKey secretKey (some token)) := by
  unfold staticOfBound at hread
  obtain ⟨accessKey, haccess, hread⟩ := Traversal.exists_of_bind_eq_ok hread
  obtain ⟨secretKey, hsecret, hread⟩ := Traversal.exists_of_bind_eq_ok hread
  refine ⟨accessKey, secretKey, Bound.eq_some_of_elim haccess, Bound.eq_some_of_elim hsecret, ?_⟩
  cases session with
  | true =>
    obtain ⟨token, htoken, hread⟩ := Traversal.exists_of_bind_eq_ok hread
    exact .inr ⟨rfl, token, Bound.eq_some_of_elim htoken, (Except.ok.inj hread).symm⟩
  | false => exact .inl ⟨rfl, (Except.ok.inj hread).symm⟩

/-- The credentials that are read are those that the configuration chooses. -/
theorem Credentials.ofBound_eq_ok_iff {credentials : Credentials} :
    ofBound config = .ok credentials ↔ credentials.Chosen config := by
  constructor
  · intro hread
    unfold ofBound at hread
    split_ifs at hread with hdefault hprofile
    · obtain rfl := Except.ok.inj hread
      exact .defaultProvider hdefault
    · obtain rfl := Except.ok.inj hread
      exact .profile hdefault hprofile
    dsimp only at hread
    split_ifs at hread with hclient
    · obtain rfl := Except.ok.inj hread
      obtain ⟨haccess, hsecret, hsession⟩ := hclient
      exact .fromClient hdefault hprofile (by simpa using haccess) (by simpa using hsecret) hsession
    obtain ⟨accessKey, secretKey, haccess, hsecret,
        ⟨hsession, rfl⟩ | ⟨hsession, token, htoken, rfl⟩⟩ :=
      staticOfBound_eq_ok hread
    · exact .keys hdefault hprofile haccess hsecret (of_decide_eq_false hsession)
    · exact .session hdefault hprofile haccess hsecret (of_decide_eq_true hsession) htoken
  · intro hchosen
    unfold ofBound staticOfBound
    cases hchosen with
    | defaultProvider hdefault => simp [hdefault]
    | profile hdefault hprofile => simp [hdefault, hprofile]
    | keys hdefault hprofile haccess hsecret hsession =>
      simp [hdefault, hprofile, haccess, hsecret, hsession]
      rfl
    | session hdefault hprofile haccess hsecret hsession htoken =>
      simp [hdefault, hprofile, haccess, hsecret, hsession, htoken]
      rfl
    | fromClient hdefault hprofile haccess hsecret hsession =>
      simp [hdefault, hprofile, haccess, hsecret, hsession]

/-! ### Settings -/

namespace Settings

theorem checks_endpointOverrideOf (hobeys : config.Obeys schema) :
    config.Checks
      (if config.bool? "overrideEndpoint" = some true then ["uriEndpointOverride"] else [])
      (endpointOverrideOf config) := by
  unfold endpointOverrideOf
  split_ifs with hoverride
  · refine Bound.checks_cons (hobeys.isSome_string? (by decide +kernel))
      (fun hnone ↦ by rw [hnone]) fun uri huri ↦ ?_
    rw [huri]
    exact Bound.checks_nil _
  · exact Bound.checks_nil _

theorem checks_proxyOf (hobeys : config.Obeys schema) :
    config.Checks (if config.contains "proxyHost" then ["proxyPort"] else []) (proxyOf config) := by
  rw [← hobeys.isSome_string? (by decide +kernel)]
  unfold proxyOf
  cases hhost : config.string? "proxyHost" with
  | none => exact Bound.checks_nil _
  | some host =>
    refine Bound.checks_cons (hobeys.isSome_int? (by decide +kernel)) (fun hnone ↦ by rw [hnone])
      fun port hport ↦ ?_
    rw [hport]
    dsimp only
    rw [hobeys.parseEnum_bind ["HTTP", "HTTPS"] (by decide +kernel) (by decide +kernel)]
    exact Bound.checks_nil _

/-- Settings are read exactly if the options that are called for are set. -/
theorem checks_ofBound (hobeys : config.Obeys schema) :
    config.Checks (demanded config) (ofBound config) := by
  unfold ofBound
  refine (hobeys.checks_string (by decide +kernel)).bind fun streamName _ ↦ ?_
  refine (checks_endpointOverrideOf hobeys).bind fun endpointOverride _ ↦ ?_
  rw [hobeys.parseEnum_bind ["TRIM_HORIZON", "LATEST", "AT_TIMESTAMP", "AFTER_SEQUENCE_NUMBER",
    "AT_SEQUENCE_NUMBER"] (by decide +kernel) (by decide +kernel)]
  dsimp only
  refine Bound.checks_guard ?_ (hobeys.isSome_string? (by decide +kernel)) ?_
  · rw [IteratorType.needsSequenceNumber_iff]
    exact or_congr (IteratorType.getD_eq_iff nofun) (IteratorType.getD_eq_iff nofun)
  refine Bound.checks_guard ?_ (hobeys.isSome_string? (by decide +kernel)) ?_
  · exact IteratorType.getD_eq_iff nofun
  refine (checks_proxyOf hobeys).bind fun proxy _ ↦ ?_
  rw [hobeys.parseEnum_bind ["ignore", "fail", "silent"] (by decide +kernel) (by decide +kernel)]
  refine (Credentials.checks_ofBound hobeys).bind fun credentials _ ↦ ?_
  exact Bound.checks_nil _

/-- The stream, the shard and the credentials of settings are those of the configuration. -/
theorem parts_of_ofBound {settings : Settings} (hsettings : ofBound config = .ok settings) :
    config.string? "streamName" = some settings.streamName ∧
      config.string? "shardId" = settings.shardId ∧
      Credentials.ofBound config = .ok settings.credentials := by
  unfold ofBound at hsettings
  obtain ⟨streamName, hstream, hrest⟩ := Traversal.exists_of_bind_eq_ok hsettings
  obtain ⟨endpointOverride, -, hrest⟩ := Traversal.exists_of_bind_eq_ok hrest
  obtain ⟨iteratorType, -, hrest⟩ := Traversal.exists_of_bind_eq_ok hrest
  dsimp only at hrest
  split at hrest
  · cases hrest
  split at hrest
  · cases hrest
  obtain ⟨proxy, -, hrest⟩ := Traversal.exists_of_bind_eq_ok hrest
  obtain ⟨shardClosed, -, hrest⟩ := Traversal.exists_of_bind_eq_ok hrest
  obtain ⟨credentials, hcredentials, hrest⟩ := Traversal.exists_of_bind_eq_ok hrest
  obtain rfl := Except.ok.inj hrest
  exact ⟨Bound.eq_some_of_elim hstream, rfl, hcredentials⟩

/-- Settings are read from a configuration that is bound exactly if it sets every option that it
calls for. Otherwise the first of these in turn that is not set is reported as missing, and nothing
else ever is. The credentials of settings are the ones that the configuration chooses, with a token
for a session only. -/
theorem consistent_settings {binder : Binder} {raw : RawValues} {resolver : Resolver}
    {config : Bound} (hbind : (binder.bind schema raw resolver).value = .ok config) :
    ((∃ settings, ofBound config = .ok settings) ↔
      ∀ option ∈ demanded config, config.contains option = true) ∧
    (∀ error, ofBound config = .error error ↔ ∃ option,
      config.lacking? (demanded config) = some option ∧
        error = .missingRequired "aws2-kinesis" option) ∧
    ∀ settings, ofBound config = .ok settings →
      ∀ credentials : Credentials, credentials.Chosen config ↔
        credentials = settings.credentials := by
  have hobeys : config.Obeys schema := Binder.obeys_of_bind hbind
  have hchecks : config.Checks (demanded config) (ofBound config) := checks_ofBound hobeys
  have hcomponent : config.component = "aws2-kinesis" := congrArg (·.id) hobeys.schema_eq
  refine ⟨hchecks.exists_ok_iff, fun error ↦ ?_, fun settings hsettings credentials ↦ ?_⟩
  · rw [hchecks.eq_error_iff, ← hcomponent]
    rfl
  · rw [← Credentials.ofBound_eq_ok_iff, (parts_of_ofBound hsettings).2.2, Except.ok.injEq, eq_comm]

/-- Reading starts at a sequence number, behind a proxy, with keys for a session. The token of the
session is missed, and kept once it is given. -/
theorem consistent_settings_session :
    let raw : RawValues := [("streamName", .text "orders"),
      ("iterator-type", .text "AT_SEQUENCE_NUMBER"), ("sequence.number", .text "4960"),
      ("proxyHost", .text "proxy.local"), ("proxyPort", .text "3128"), ("accessKey", .text "AK"),
      ("secretKey", .text "SK"), ("useSessionCredentials", .text "TRUE")]
    let config (token : Option OptionValue) : Bound := ⟨schema,
      [some (.string "orders"), some (.bool true), none, some (.bool false), none,
        some (.enum "AT_SEQUENCE_NUMBER"), some (.int 1), none, some (.string "4960"),
        some (.enum "ignore"), none, some (.long 10000), some (.bool false), some (.bool false),
        none, some (.bool true), some (.bool true), some (.string "proxy.local"),
        some (.int 3128), some (.enum "HTTPS"), some (.string "AK"), some (.string "SK"), token,
        none, some (.bool false), some (.bool false), some (.bool false), some (.bool true)]⟩
    let token := some (OptionValue.string "token")
    (({} : Binder).bind schema raw .none).value = .ok (config none) ∧
      ofBound (config none) = .error (.missingRequired "aws2-kinesis" "sessionToken") ∧
      (({} : Binder).bind schema (("session_token", .text "token") :: raw) .none).value =
        .ok (config token) ∧
      ∃ settings, ofBound (config token) = .ok settings ∧
        settings.credentials = .static "AK" "SK" (some "token") := by
  intro raw config token
  -- Names are compared many times over here, so all that is evaluated is evaluated at once.
  have hfacts : (({} : Binder).bind schema raw .none).value = .ok (config none) ∧
      (config none).lacking? (demanded (config none)) = some "sessionToken" ∧
      (({} : Binder).bind schema (("session_token", .text "token") :: raw) .none).value =
        .ok (config token) ∧
      (∀ option ∈ demanded (config token), (config token).contains option = true) ∧
      (config token).bool? "useDefaultCredentialsProvider" ≠ some true ∧
      (config token).bool? "useProfileCredentialsProvider" ≠ some true ∧
      (config token).string? "accessKey" = some "AK" ∧
      (config token).string? "secretKey" = some "SK" ∧
      (config token).bool? "useSessionCredentials" = some true ∧
      (config token).string? "sessionToken" = some "token" := by
    decide +kernel
  obtain ⟨hwithout, hlacking, hwith, hset, hdefault, hprofile, haccess, hsecret, hsession,
    htoken⟩ := hfacts
  obtain ⟨-, herror, -⟩ := consistent_settings hwithout
  obtain ⟨haccepted, -, hchosen⟩ := consistent_settings hwith
  obtain ⟨settings, hsettings⟩ := haccepted.mpr hset
  refine ⟨hwithout, (herror _).mpr ⟨_, hlacking, rfl⟩, hwith, settings, hsettings, ?_⟩
  exact ((hchosen settings hsettings _).mp
    (.session hdefault hprofile haccess hsecret hsession htoken)).symm

end Settings

end Connectors.Kinesis
