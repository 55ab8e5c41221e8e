import CloudSession.Proofs.Session.Choice

/-!
# Precedence of credentials

A session takes its credentials by the first rule that applies, and there is no session exactly if
that rule fails.
-/

namespace CloudSession

/-- Two worlds that differ in their warnings alone. -/
def World.IsAlike (world other : World) : Prop :=
  ∃ noted, other = { world with warnings := noted }

/-- Warnings do not change what counts of the world. -/
theorem World.isAlike_warnAll (world : World) (warnings : List Warning) :
    world.IsAlike (world.warnAll warnings) := by
  induction warnings generalizing world with
  | nil => exact ⟨world.warnings, rfl⟩
  | cons warning rest ih =>
    obtain ⟨noted, hnoted⟩ := ih (world.warn warning)
    refine ⟨noted, ?_⟩
    rw [World.warnAll, List.foldl_cons, ← World.warnAll, hnoted, World.warn]
    split <;> rfl

/-- The value of a mapped result is the mapped value. -/
private theorem value_run_map {ε α β : Type} (f : α → β) (x : ExceptT ε Logged α) :
    (f <$> x).run.value = f <$> x.run.value := by
  have hrun : (f <$> x).run = (x.run >>= fun
      | .ok a => pure (.ok (f a))
      | .error error => pure (.error error)) := rfl
  rw [hrun, Logged.value_bind]
  cases x.run.value <;> rfl

/-- A result that is there is the result. -/
theorem eq_ok_of_toOption {ε α : Type} {outcome : Except ε α} {value : α}
    (h : outcome.toOption = some value) : outcome = .ok value := by
  cases outcome with
  | error error => cases h
  | ok other => exact congrArg Except.ok (Option.some.inj h)

namespace Session

variable {policy : RefreshPolicy} {options : SessionOptions} {world : World}

/-- A session is set up by its plan once the warnings are noted. -/
theorem run_make (policy : RefreshPolicy) (options : SessionOptions) (world : World) :
    (make policy options).run world =
      (match (options.plan world.environment world.files world.orders
          world.libraries.tls).run.value with
      | .error error => (return .error error : Setup (Except SessionError Session))
      | .ok plan => return .ok (← ofPlan policy plan)).run
        (world.warnAll (options.plan world.environment world.files world.orders
          world.libraries.tls).run.warnings) := rfl

/-- Without a plan there is no session. -/
theorem run_make_of_error {error : SessionError}
    (h : (options.plan world.environment world.files world.orders
      world.libraries.tls).run.value = .error error) :
    ((make policy options).run world).1 = .error error := by
  rw [run_make, h]
  rfl

/-- With a plan there is a session. -/
theorem run_make_of_ok (policy : RefreshPolicy) {plan : SessionPlan}
    (h : (options.plan world.environment world.files world.orders
      world.libraries.tls).run.value = .ok plan) :
    ∃ noted, world.IsAlike noted ∧
      (make policy options).run world = ((ofPlan policy plan).run noted).map .ok id := by
  refine ⟨_, world.isAlike_warnAll (options.plan world.environment world.files world.orders
    world.libraries.tls).run.warnings, ?_⟩
  rw [run_make, h]
  rfl

/-- The credentials of a plan are those of its source, behind a new cache. -/
theorem run_ofPlan_some {config : Config} {source : CredentialsSource} {provider : Provider}
    {after : World}
    (h : (source.setUp policy (config.verboseErrors.getD false)).run world = (provider, after)) :
    ∃ session : Session,
      session.config.credentials = some { cache := after.caches.length, inner := provider } ∧
      (ofPlan policy { config, source := some source }).run world =
        (session, { after with caches := after.caches ++ [({} : CredentialsCache)] }) := by
  obtain ⟨rfl, rfl⟩ := Prod.mk.inj h
  exact ⟨_, rfl, rfl⟩

end Session

namespace Circumstances

variable {policy : RefreshPolicy} {c : Circumstances} {shared : SharedSettings}

/-! ## The plan -/

/-- What sends requests, or why nothing can. -/
def client (c : Circumstances) : Except SessionError HttpClient := do
  let bundle ← c.options.bundle c.environment c.files
  SessionOptions.client c.tls c.options.config.httpClient bundle

/-- What the profile files say, or why they say nothing. -/
def settings (c : Circumstances) : Except SessionError SharedSettings :=
  (SharedSettings.load c.env c.files c.orders.listed c.sources c.profile).value

/-- The configuration of the session, apart from credentials that it does not have yet. -/
def configFor (c : Circumstances) (shared : SharedSettings) (client : HttpClient) : Config :=
  { c.options.config with
    region := c.options.region c.environment shared
    httpClient := some client
    resolver := c.options.config.resolver <|> some EndpointResolver.standard }

/-- The settings of a session are those of its circumstances. -/
theorem settings_eq (c : Circumstances) :
    (SharedSettings.load c.env c.files c.orders.listed (c.options.profileSources c.environment)
      c.environment.profile).value = c.settings := by
  rw [profileSources_eq, EnvironmentSettings.load_profile, Circumstances.settings]

/-- A session is prepared if it can send requests and its settings are loaded. -/
theorem arePrepared_iff :
    c.ArePrepared shared ↔ (∃ client, c.client = .ok client) ∧ c.settings = .ok shared := by
  have hclient (client : HttpClient) : c.client = .ok client ↔
      ∃ bundle, c.options.bundle c.environment c.files = .ok bundle ∧
        SessionOptions.client c.tls c.options.config.httpClient bundle = .ok client := by
    cases h : c.options.bundle c.environment c.files <;>
      simp [Circumstances.client, h, bind, Except.bind]
  constructor
  · rintro ⟨⟨bundle, client, hbundle, hgiven⟩, hload⟩
    exact ⟨⟨client, (hclient client).mpr ⟨bundle, hbundle, hgiven⟩⟩, (settings_eq c).symm.trans hload⟩
  · rintro ⟨⟨client, hok⟩, hload⟩
    obtain ⟨bundle, hbundle, hgiven⟩ := (hclient client).mp hok
    exact ⟨⟨bundle, client, hbundle, hgiven⟩, (settings_eq c).trans hload⟩

/-- The plan as it is made: first what sends requests, then the profile files, then the source. -/
theorem plan_eq (c : Circumstances) :
    (c.options.plan c.env c.files c.orders c.tls).run.value =
      c.client.bind fun client => c.settings.bind fun shared =>
        (c.outcome shared).map fun source => { config := c.configFor shared client, source } := by
  have henvironment : (EnvironmentSettings.load c.env c.options.sharedConfig
      c.options.profile : ExceptT SessionError Logged EnvironmentSettings).run.value =
      .ok c.environment := rfl
  unfold SessionOptions.plan
  simp only [ExceptT.run_bind, Logged.value_bind, henvironment, SessionOptions.plan.liftExcept,
    ExceptT.run_mk, Logged.value_pure]
  cases hbundle : c.options.bundle c.environment c.files with
  | error error =>
    have hfailed : c.client = .error error := by rw [client, hbundle]; rfl
    rw [hfailed]
    rfl
  | ok bundle =>
    have hclient : c.client = SessionOptions.client c.tls c.options.config.httpClient bundle := by
      rw [client, hbundle]; rfl
    rw [hclient]
    simp only [Logged.value_bind, Logged.value_pure]
    cases SessionOptions.client c.tls c.options.config.httpClient bundle with
    | error error => rfl
    | ok client =>
      simp only [Logged.value_bind, settings_eq]
      cases c.settings with
      | error error => rfl
      | ok shared =>
        change _ = (c.outcome shared).map _
        dsimp only
        rw [outcome]
        split
        · rfl
        · rw [ExceptT.run_bind, Logged.value_bind, value_run_map, ExceptT.run_mk]
          cases (CredentialsSource.choose c.env c.files c.orders.alone c.options.tools
            c.environment shared).value <;> rfl

/-! ## Sessions by their source -/

/-- Once a session is prepared, its settings describe what the circumstances say. -/
theorem ArePrepared.isDescribedBy (h : c.ArePrepared shared) : c.IsDescribedBy shared := by
  have hload := h.shared
  rw [profileSources_eq, EnvironmentSettings.load_profile] at hload
  exact isDescribedBy_of_load hload

/-- The plan has the wishes of the caller and the source of credentials. -/
theorem ArePrepared.plan_value (h : c.ArePrepared shared) :
    ∃ config : Config, config.credentials = c.options.config.credentials ∧
      config.verboseErrors = c.options.config.verboseErrors ∧
      (c.options.plan c.env c.files c.orders c.tls).run.value =
        (c.outcome shared).map fun source => { config, source } := by
  obtain ⟨⟨client, hclient⟩, hload⟩ := arePrepared_iff.mp h
  refine ⟨c.configFor shared client, rfl, rfl, ?_⟩
  rw [plan_eq, hclient, hload]
  rfl

/-- A session is made by a rule that gives it the credentials. -/
theorem follows_of_ok {rule : Rule} {session : Session} {after : World} {credentials : CachedProvider}
    (hmake : (Session.make policy c.options).run c.world = (.ok session, after))
    (hfails : ∀ error, ¬c.Fails rule error)
    (hcredentials : session.config.credentials = some credentials)
    (hgives : c.Gives policy after rule credentials) :
    c.Follows policy rule := by
  constructor
  · intro error
    rw [hmake]
    exact iff_of_false nofun (hfails error)
  · intro other later hother
    obtain ⟨hsession, rfl⟩ := Prod.mk.inj (hmake.symm.trans hother)
    obtain rfl := Except.ok.inj hsession
    exact ⟨credentials, hcredentials, hgives⟩

section Outcome

variable {rule : Rule} (h : c.ArePrepared shared)

include h

/-- A rule that fails gives no session. -/
theorem follows_of_error {error : SessionError} (houtcome : c.outcome shared = .error error)
    (hfails : ∀ other, c.Fails rule other ↔ other = error) : c.Follows policy rule := by
  obtain ⟨config, -, -, hplan⟩ := h.plan_value
  rw [houtcome] at hplan
  have hmake : ((Session.make policy c.options).run c.world).1 = .error error :=
    Session.run_make_of_error hplan
  constructor
  · intro other
    rw [hmake, hfails, Except.error.injEq, eq_comm]
  · intro session after hok
    rw [hok] at hmake
    cases hmake

/-- Credentials of the caller need no source. -/
theorem follows_given (houtcome : c.outcome shared = .ok none)
    (hgiven : c.options.config.credentials.isSome) : c.Follows policy .given := by
  obtain ⟨config, hconfig, -, hplan⟩ := h.plan_value
  rw [houtcome] at hplan
  obtain ⟨noted, -, hmake⟩ := Session.run_make_of_ok policy hplan
  obtain ⟨credentials, hsome⟩ := Option.isSome_iff_exists.mp hgiven
  exact follows_of_ok hmake nofun (hconfig.trans hsome) (.given hsome)

/-- A rule with a source gives what the source is set up as, behind a new cache. -/
theorem follows_of_source {source : CredentialsSource}
    (houtcome : c.outcome shared = .ok (some source)) (hfails : ∀ error, ¬c.Fails rule error)
    (hprovides : ∀ noted, c.world.IsAlike noted → ∃ provider after,
      (source.setUp policy (c.options.config.verboseErrors.getD false)).run noted =
        (provider, after) ∧
      after.caches = c.world.caches ∧
      c.Provides policy
        { after with caches := after.caches ++ [({} : CredentialsCache)] } rule provider) :
    c.Follows policy rule := by
  obtain ⟨config, -, hverbose, hplan⟩ := h.plan_value
  rw [houtcome] at hplan
  obtain ⟨noted, hnoted, hmake⟩ := Session.run_make_of_ok policy hplan
  obtain ⟨provider, after, hsetUp, hcaches, hprovider⟩ := hprovides noted hnoted
  replace hverbose : config.verboseErrors = c.options.config.verboseErrors := hverbose
  rw [← hverbose] at hsetUp
  obtain ⟨session, hcredentials, hofPlan⟩ := Session.run_ofPlan_some hsetUp
  rw [hofPlan] at hmake
  have hlength : after.caches.length = c.world.caches.length := by rw [hcaches]
  rw [hlength] at hcredentials
  refine follows_of_ok hmake hfails hcredentials (.provided hprovider ?_)
  change after.caches ++ _ = _
  rw [hcaches]

end Outcome

/-! ## Sessions by their rule -/

/-- If the API key of a place comes first, the session follows that rule. -/
theorem follows_apiKey {place : KeyPlace} (h : c.ArePrepared shared)
    (hfirst : c.IsFirst (.apiKey place)) : c.Follows policy (.apiKey place) := by
  obtain ⟨key, hkey⟩ := Option.isSome_iff_exists.mp hfirst.applies
  have hgrant : c.grant? place =
      some
        { issuer :=
            { apiKey := key
              endpoint := Iam.endpointOrDefault (c.apiKeySettings place).authEndpoint }
          serviceInstance := (c.apiKeySettings place).serviceInstance } := by
    rw [grant?, hkey]
    rfl
  refine follows_of_source h (outcome_of_apiKey hfirst hgrant) (fun error hfails => ?_) ?_
  · cases hfails
  · rintro _ ⟨noted, rfl⟩
    exact ⟨_, _, rfl, rfl, .apiKey hkey rfl⟩

/-- If a named source comes first, the session follows that rule. -/
theorem follows_named (h : c.ArePrepared shared) (hfirst : c.IsFirst .named) :
    c.Follows policy .named := by
  obtain ⟨henabled, hsome⟩ := hfirst.applies
  obtain ⟨name, hname⟩ := Option.isSome_iff_exists.mp hsome
  have houtcome := outcome_of_settings shared hfirst (by decide)
  rw [ofSettings_named h.isDescribedBy henabled hname, CredentialsSource.named]
    at houtcome
  by_cases hprofile : (c.property? "source_profile").isSome
  · have hsource : c.roleSettings.sourceProfile.isSome := hprofile
    rw [if_pos hsource] at houtcome
    refine follows_of_error h houtcome fun error => ⟨?_, ?_⟩
    · rintro (_ | ⟨hnone, -⟩)
      · rfl
      · simp [hnone] at hprofile
    · rintro rfl
      exact .sourceCollision hprofile
  · have hsource : ¬c.roleSettings.sourceProfile.isSome = true := hprofile
    rw [if_neg hsource] at houtcome
    have hnone := Option.not_isSome_iff_eq_none.mp hprofile
    by_cases henvironment : name = "Environment"
    · rw [if_pos henvironment] at houtcome
      refine follows_of_source h houtcome ?_ ?_
      · rintro error (hsome | ⟨-, hother⟩)
        · exact hprofile hsome
        · exact hother (hname.trans (congrArg some henvironment))
      · rintro _ ⟨noted, rfl⟩
        refine ⟨_, _, rfl, rfl, ?_⟩
        cases hkeys : c.environment.keys with
        | none =>
          refine .namedEmpty fun keys hin => ?_
          cases hkeys.symm.trans (KeyPair.ofEnvironment?_eq_some_iff.mpr hin)
        | some keys =>
          have hin := KeyPair.ofEnvironment?_eq_some_iff.mp hkeys
          exact hin.keysProvider_eq "EnvConfigCredentials" ▸ .named hin
    · rw [if_neg henvironment] at houtcome
      refine follows_of_error h houtcome fun error => ⟨?_, ?_⟩
      · rintro (hsome | _)
        · exact absurd hsome hprofile
        · rfl
      · rintro rfl
        refine .invalidSource hnone ?_
        rw [hname]
        simpa using henvironment

/-- If the keys in the environment come first, the session follows that rule. -/
theorem follows_environmentKeys (h : c.ArePrepared shared) (hfirst : c.IsFirst .environmentKeys) :
    c.Follows policy .environmentKeys := by
  obtain ⟨keys, hkeys⟩ := hfirst.applies
  have houtcome := outcome_of_settings shared hfirst (by decide)
  rw [ofSettings_environmentKeys h.isDescribedBy
    (hfirst.not_applies (by decide)) hkeys] at houtcome
  refine follows_of_source h houtcome nofun ?_
  rintro _ ⟨noted, rfl⟩
  refine ⟨_, _, rfl, rfl, ?_⟩
  exact hkeys.keysProvider_eq "EnvConfigCredentials" ▸ .environmentKeys hkeys

/-- If a role comes first, the session follows that rule. -/
theorem follows_role (h : c.ArePrepared shared) (hfirst : c.IsFirst .role) :
    c.Follows policy .role := by
  obtain ⟨henabled, hrole, hprofile⟩ := hfirst.applies
  obtain ⟨roleArn, hroleArn⟩ := Option.isSome_iff_exists.mp hrole
  obtain ⟨profile, hprofileName⟩ := Option.isSome_iff_exists.mp hprofile
  obtain ⟨keys, hkeys, hsettings⟩ := ofSettings_role h.isDescribedBy
    (hfirst.not_applies (by decide)) (hfirst.not_applies (by decide)) henabled hroleArn hprofileName
  have houtcome := outcome_of_settings shared hfirst (by decide)
  rw [hsettings, CredentialsSource.ofRole] at houtcome
  have hlacks : (c.roleSettings.mfaSerial.isSome && c.options.tools.mfa.isNone) = true ↔
      (c.property? "mfa_serial").isSome ∧ c.options.tools.mfa = none := by
    rw [Bool.and_eq_true, Option.isNone_iff_eq_none]
    rfl
  by_cases hmfa : (c.property? "mfa_serial").isSome ∧ c.options.tools.mfa = none
  · rw [if_pos (hlacks.mpr hmfa)] at houtcome
    refine follows_of_error h houtcome fun error => ⟨?_, ?_⟩
    · rintro (_ | _ | _ | ⟨-, hhas, -⟩)
      · rfl
      · exact absurd hmfa.2 (hhas hmfa.1)
    · rintro rfl
      exact .mfaUnset hmfa.1 hmfa.2
  · rw [if_neg (mt hlacks.mp hmfa)] at houtcome
    have hhas (hserial : (c.property? "mfa_serial").isSome) : c.options.tools.mfa ≠ none :=
      fun hnone => hmfa ⟨hserial, hnone⟩
    cases hassumer : c.options.tools.assumer with
    | none =>
      rw [hassumer] at houtcome
      refine follows_of_error h houtcome fun error => ⟨?_, ?_⟩
      · rintro (_ | _ | ⟨hserial, hnone⟩ | ⟨hother, -, -⟩)
        · exact absurd hnone (hhas hserial)
        · rw [Option.some.inj (hother.symm.trans hroleArn)]
      · rintro rfl
        exact .assumerUnset hroleArn hhas hassumer
    | some assumer =>
      rw [hassumer] at houtcome
      refine follows_of_source h houtcome ?_ ?_
      · rintro error (_ | _ | ⟨hserial, hnone⟩ | ⟨-, -, hnone⟩)
        · exact hhas hserial hnone
        · cases hassumer.symm.trans hnone
      · rintro _ ⟨noted, rfl⟩
        refine ⟨_, _, rfl, rfl, ?_⟩
        rw [hkeys.keysProvider_eq]
        exact .role hroleArn hprofileName hkeys hassumer rfl

/-- If the keys of the profile come first, the session follows that rule. -/
theorem follows_profileKeys (h : c.ArePrepared shared) (hfirst : c.IsFirst .profileKeys) :
    c.Follows policy .profileKeys := by
  obtain ⟨keys, hkeys⟩ := hfirst.applies
  have houtcome := outcome_of_settings shared hfirst (by decide)
  rw [ofSettings_of_not_role h.isDescribedBy (hfirst.not_applies (by decide))
    (hfirst.not_applies (by decide)) (hfirst.not_applies (by decide)),
    (h.isDescribedBy.keys keys).mpr hkeys] at houtcome
  refine follows_of_source h houtcome nofun ?_
  rintro _ ⟨noted, rfl⟩
  refine ⟨_, _, rfl, rfl, ?_⟩
  exact hkeys.keysProvider_eq "SharedConfigCredentials" ▸ .profileKeys hkeys

/-- If nothing is found, the session has no credentials. -/
theorem follows_missing (h : c.ArePrepared shared) (hfirst : c.IsFirst .missing) :
    c.Follows policy .missing := by
  have hkeys : shared.keys = none := by
    cases hshared : shared.keys with
    | none => rfl
    | some keys =>
      have hnot : ¬c.Applies .profileKeys := hfirst.not_applies (by decide)
      exact absurd ⟨keys, (h.isDescribedBy.keys keys).mp hshared⟩ hnot
  have houtcome := outcome_of_settings shared hfirst (by decide)
  rw [ofSettings_of_not_role h.isDescribedBy (hfirst.not_applies (by decide))
    (hfirst.not_applies (by decide)) (hfirst.not_applies (by decide)), hkeys] at houtcome
  refine follows_of_source h houtcome nofun ?_
  rintro _ ⟨noted, rfl⟩
  exact ⟨_, _, rfl, rfl, .missing rfl⟩

/-- A session takes its credentials by the first rule that applies, and is missing exactly if that
rule fails. -/
theorem make_follows_first_rule (policy : RefreshPolicy) (c : Circumstances) (shared : SharedSettings)
    (h : c.ArePrepared shared) : ∃ rule, c.IsFirst rule ∧ c.Follows policy rule := by
  obtain ⟨rule, hfirst⟩ := c.exists_isFirst
  refine ⟨rule, hfirst, ?_⟩
  cases rule with
  | given =>
    have hgiven : c.options.config.credentials.isSome := hfirst.applies
    exact follows_given h (if_pos hgiven) hgiven
  | apiKey place => exact follows_apiKey h hfirst
  | named => exact follows_named h hfirst
  | environmentKeys => exact follows_environmentKeys h hfirst
  | role => exact follows_role h hfirst
  | profileKeys => exact follows_profileKeys h hfirst
  | missing => exact follows_missing h hfirst

/-- A profile with a role beside keys of its own, where an assumer is at hand. -/
def roleBesideKeys : Circumstances where
  options := { sharedConfig := .enabled, tools := { assumer := some 0 } }
  world :=
    { environment := { entries := [("HOME", "/h"), ("AWS_PROFILE", "work")] }
      files :=
        { files :=
            [("/h/.aws/config",
                "[profile work]\nrole_arn = arn\nsource_profile = base\n".toUTF8.toList),
              ("/h/.aws/credentials",
                ("[work]\naws_access_key_id = w\naws_secret_access_key = x\n" ++
                  "[base]\naws_access_key_id = b\naws_secret_access_key = c\n").toUTF8.toList)] } }

/-- A role beside keys in the same profile comes first, and is followed. -/
theorem roleBesideKeys_follows :
    (∃ shared, roleBesideKeys.ArePrepared shared) ∧
      ∃ rule, roleBesideKeys.IsFirst rule ∧ roleBesideKeys.Follows {} rule := by
  have hprepared : roleBesideKeys.ArePrepared
      { keys := some { accessKeyId := "w", secretAccessKey := "x" }
        role := { roleArn := some "arn", sourceProfile := some "base" }
        roleSource := some { accessKeyId := "b", secretAccessKey := "c" } } :=
    ⟨⟨none, .standard, rfl, rfl⟩, eq_ok_of_toOption (by decide +kernel)⟩
  exact ⟨⟨_, hprepared⟩, make_follows_first_rule {} roleBesideKeys _ hprepared⟩

end Circumstances

end CloudSession
