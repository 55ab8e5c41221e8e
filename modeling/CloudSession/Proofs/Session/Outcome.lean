import CloudSession.Proofs.Session.Precedence

/-!
# Outcomes

The outcome of making a session is an error, or what the session shows: its region, its credentials
and the source of the tokens behind them. It is settled by what can be said of the profile files and by
the source that is chosen.
-/

namespace CloudSession

/-- What a session shows: its region, its credentials, and where the tokens behind them come from. -/
structure SessionView where
  region : Option String
  credentials : Option CachedProvider
  issuer : Option Issuer

/-- Where the tokens of a provider come from. -/
def World.issuerOf? (world : World) (provider : Provider) : Option Issuer := do
  let manager ← provider.manager?
  let managed ← world.managers[manager]?
  some managed.issuer

/-- What the session shows in a world. -/
def Session.view (session : Session) (world : World) : SessionView where
  region := session.config.region
  credentials := session.config.credentials
  issuer := session.config.credentials.bind fun credentials => world.issuerOf? credentials.inner

/-- The API key that a session shows, by the name of its provider. -/
def SessionView.key? (view : SessionView) : Option (String × ApiKeyGrant) :=
  match view.credentials.map CachedProvider.inner, view.issuer with
  | some (.tokens provider _ serviceInstance), some (.apiKey issuer) =>
    some (provider, { issuer, serviceInstance })
  | _, _ => none

/-- The API key of a source, by the name of its provider. -/
def CredentialsSource.key? : CredentialsSource → Option (String × ApiKeyGrant)
  | .apiKey provider grant => some (provider, grant)
  | _ => none

/-- The choice of credentials fails with the error. -/
inductive SessionError.IsOfChoice : SessionError → Prop
  | sourceCollision : IsOfChoice .sourceCollision
  | invalidSource : IsOfChoice .invalidSource
  | mfaUnset : IsOfChoice .mfaUnset
  | assumerUnset (roleArn : String) : IsOfChoice (.assumerUnset roleArn)

/-- A place is told by the name of its provider. -/
theorem KeyPlace.provider_injective : Function.Injective KeyPlace.provider := by
  intro place other h
  rcases place with _ | (_ | _) <;> rcases other with _ | (_ | _) <;>
    first | rfl | exact absurd h (by decide)

namespace CredentialsSource

variable {tools : RoleTools} {environment : EnvironmentSettings} {shared : SharedSettings}

/-- The role of a profile is no API key, and fails on account of a second factor or of an assumer. -/
theorem ofRole_cases (tools : RoleTools) (settings : RoleSettings) (roleArn : String)
    (keys : KeyPair) :
    (∃ source, ofRole tools settings roleArn keys = .ok source ∧ source.key? = none) ∨
      ∃ error, ofRole tools settings roleArn keys = .error error ∧ error.IsOfChoice := by
  unfold ofRole
  split
  · exact .inr ⟨_, rfl, .mfaUnset⟩
  · split
    · exact .inr ⟨_, rfl, .assumerUnset roleArn⟩
    · exact .inl ⟨_, rfl, rfl⟩

/-- What the settings say is never an API key, and fails as a choice of credentials does. -/
theorem ofSettings_cases (tools : RoleTools) (environment : EnvironmentSettings)
    (shared : SharedSettings) :
    (∃ source, ofSettings tools environment shared = .ok source ∧ source.key? = none) ∨
      ∃ error, ofSettings tools environment shared = .error error ∧ error.IsOfChoice := by
  unfold ofSettings
  split
  · unfold named
    split
    · exact .inr ⟨_, rfl, .sourceCollision⟩
    · split
      · exact .inl ⟨_, rfl, rfl⟩
      · exact .inr ⟨_, rfl, .invalidSource⟩
  · split
    · exact .inl ⟨_, rfl, rfl⟩
    · split
      · rename_i hrole
        obtain ⟨hrole, -⟩ := Option.filter_eq_some_iff.mp hrole
        unfold ofRole? at hrole
        obtain ⟨roleArn, -, hrole⟩ := Option.bind_eq_some_iff.mp hrole
        obtain ⟨keys, -, hrole⟩ := Option.bind_eq_some_iff.mp hrole
        obtain rfl := Option.some.inj hrole
        exact ofRole_cases tools shared.role roleArn keys
      · split
        · exact .inl ⟨_, rfl, rfl⟩
        · exact .inl ⟨_, rfl, rfl⟩

end CredentialsSource

namespace Circumstances

/-- The same wishes in a world with other files, whose sections are gone through in orders of their
own. -/
def withFiles (c : Circumstances) (files : FileStore) (orders : Profile.Orders) : Circumstances :=
  { c with world := { c.world with files, orders } }

variable (c : Circumstances)

/-- The first API key, with its place. -/
def key? : Option (KeyPlace × ApiKeyGrant) :=
  [KeyPlace.environment, .file .credentials, .file .config].findSome? fun place =>
    (c.grant? place).map (place, ·)

/-- The outcome of making the session: why there is none, or what it shows. -/
def view (policy : RefreshPolicy) : Except SessionError SessionView :=
  let made := (Session.make policy c.options).run c.world
  made.1.map (·.view made.2)

/-- What a session shows that has the region, and the credentials of the caller or of a source. -/
def shown (policy : RefreshPolicy) (region : Option String) : Option CredentialsSource → SessionView
  | none =>
    { region
      credentials := c.options.config.credentials
      issuer := c.options.config.credentials.bind fun given => c.world.issuerOf? given.inner }
  | some source =>
    let made := (source.setUp policy (c.options.config.verboseErrors.getD false)).run c.world
    { region
      credentials := some { cache := made.2.caches.length, inner := made.1 }
      issuer := made.2.issuerOf? made.1 }

variable {c} {policy : RefreshPolicy} {files : FileStore} {orders : Profile.Orders}

/-- What a session shows does not depend on the warnings. -/
theorem view_ofPlan {region : Option String} {source : Option CredentialsSource} {config : Config}
    {noted : World} (halike : c.world.IsAlike noted) (hregion : config.region = region)
    (hcredentials : config.credentials = c.options.config.credentials)
    (hverbose : config.verboseErrors = c.options.config.verboseErrors) :
    ((Session.ofPlan policy { config, source }).run noted).1.view
      ((Session.ofPlan policy { config, source }).run noted).2 = c.shown policy region source := by
  obtain ⟨warnings, rfl⟩ := halike
  subst hregion
  cases source with
  | none => rw [shown, ← hcredentials]; rfl
  | some source => rw [shown, ← hverbose]; cases source <;> rfl

/-- A session shows what its plan says, after whatever warnings. -/
theorem view_of_plan (policy : RefreshPolicy) {plan : Except SessionError SessionPlan}
    (h : (c.options.plan c.env c.files c.orders c.tls).run.value = plan) :
    ∃ noted, c.world.IsAlike noted ∧ c.view policy = plan.map fun plan =>
      ((Session.ofPlan policy plan).run noted).1.view ((Session.ofPlan policy plan).run noted).2 := by
  refine ⟨_, c.world.isAlike_warnAll
    (c.options.plan c.env c.files c.orders c.tls).run.warnings, ?_⟩
  rw [view, Session.run_make, h]
  cases plan <;> rfl

/-- The outcome, in the order in which it is settled: by what sends requests, by the profile files, by
the source of credentials. -/
theorem view_eq (policy : RefreshPolicy) (c : Circumstances) :
    c.view policy =
      c.client.bind fun _ => c.settings.bind fun shared =>
        (c.outcome shared).map (c.shown policy (c.options.region c.environment shared)) := by
  obtain ⟨noted, halike, hview⟩ := view_of_plan policy (plan_eq c)
  rw [hview]
  cases c.client with
  | error error => rfl
  | ok client =>
    cases c.settings with
    | error error => rfl
    | ok shared =>
      cases houtcome : c.outcome shared with
      | error error =>
        simp only [Except.bind, houtcome]
        rfl
      | ok source =>
        simp only [Except.bind, houtcome, Except.map]
        exact congrArg Except.ok (view_ofPlan halike rfl rfl rfl)

/-- Once it is prepared, the outcome is settled by the source of credentials. -/
theorem view_of_arePrepared (policy : RefreshPolicy) {shared : SharedSettings}
    (h : c.ArePrepared shared) :
    c.view policy =
      (c.outcome shared).map (c.shown policy (c.options.region c.environment shared)) := by
  obtain ⟨⟨client, hclient⟩, hsettings⟩ := arePrepared_iff.mp h
  rw [view_eq, hclient, hsettings]
  rfl

/-- Where nothing can be sent, nothing else counts. -/
theorem view_of_client_error (policy : RefreshPolicy) {error : SessionError}
    (h : c.client = .error error) : c.view policy = .error error := by
  rw [view_eq, h]
  rfl

/-- Where the profile files cannot be loaded, the source of credentials does not count. -/
theorem view_of_settings_error (policy : RefreshPolicy) {client : HttpClient} {error : SessionError}
    (hclient : c.client = .ok client) (h : c.settings = .error error) :
    c.view policy = .error error := by
  rw [view_eq, hclient, h]
  rfl

/-- What can be loaded says what the profile says, unless its role lacks a source. -/
theorem settings_cases (h : c.merged.isSome) :
    (∃ roleArn, c.LacksSource roleArn ∧ c.settings = .error (.roleSourceUnset roleArn)) ∨
      (∀ roleArn, ¬c.LacksSource roleArn) ∧ ∃ shared, c.settings = .ok shared ∧
        shared.region = c.property? "region" ∧ shared.keys = c.keysOf? c.profile := by
  obtain ⟨set, hset⟩ := Option.isSome_iff_exists.mp h
  rw [settings, load_of_merged hset]
  rcases roleSourceOf_cases hset with ⟨roleArn, hlacks, herror⟩ | ⟨hsource, hok⟩
  · exact .inl ⟨roleArn, hlacks, by rw [herror]; rfl⟩
  · exact .inr ⟨hsource, _, by rw [hok]; rfl, rfl, rfl⟩

/-- The settings fail by a file that cannot be loaded, or by a role that lacks a source. -/
theorem settings_error_cases {error : SessionError} (h : c.settings = .error error) :
    (∃ fault, error = .sharedConfig fault) ∨ ∃ roleArn, error = .roleSourceUnset roleArn := by
  cases hload : (Profile.load c.env c.files c.sources (some c.profile) c.orders.listed).value with
  | error fault =>
    have hfault : c.settings = .error (.sharedConfig fault) := by
      rw [settings, SharedSettings.load, Logged.value_bind, hload]
      rfl
    exact .inl ⟨fault, Except.error.inj (h.symm.trans hfault)⟩
  | ok set =>
    have hmerged : c.merged.isSome := by rw [merged, hload]; rfl
    rcases settings_cases hmerged with ⟨roleArn, -, hlacks⟩ | ⟨-, shared, hshared, -, -⟩
    · exact .inr ⟨roleArn, Except.error.inj (h.symm.trans hlacks)⟩
    · cases h.symm.trans hshared

/-- The profile files fail before the choice of credentials. -/
theorem settings_error {error : SessionError} (h : c.settings = .error error) :
    ¬error.IsOfChoice := by
  intro hchoice
  rcases settings_error_cases h with ⟨fault, rfl⟩ | ⟨roleArn, rfl⟩
  · cases hchoice
  · cases hchoice

/-! ## The API key in the outcome -/

/-- A session shows the API key of its source, and no other. -/
theorem key?_shown (c : Circumstances) (policy : RefreshPolicy) (region : Option String)
    (source : CredentialsSource) : (c.shown policy region (some source)).key? = source.key? := by
  cases source with
  | apiKey provider grant =>
    have hissuer : (c.shown policy region (some (.apiKey provider grant))).issuer =
        some (.apiKey grant.issuer) := by
      change ((c.world.managers ++ [{ manager := { policy }, issuer := .apiKey grant.issuer }])[
        c.world.managers.length]?.bind fun managed => some managed.issuer) = _
      rw [List.getElem?_concat_length]
      rfl
    unfold SessionView.key?
    rw [hissuer]
    rfl
  | environmentKeys keys => cases keys <;> rfl
  | _ => rfl

/-- Credentials of the caller need no source. -/
theorem outcome_of_given (h : c.Applies .given) (shared : SharedSettings) :
    c.outcome shared = .ok none :=
  if_pos h

/-- Without credentials of the caller, the first API key is the source, else the settings decide. -/
theorem outcome_of_key? (h : ¬c.Applies .given) (shared : SharedSettings) :
    c.outcome shared = match c.key? with
      | some (place, grant) => .ok (some (.apiKey place.provider grant))
      | none => some <$> CredentialsSource.ofSettings c.options.tools c.environment shared := by
  have hkey : [KeyPlace.environment, .file .credentials, .file .config].findSome? (fun place =>
      (c.grant? place).map (CredentialsSource.apiKey place.provider)) =
      c.key?.map fun first => .apiKey first.1.provider first.2 := by
    rw [key?, List.map_findSome?]
    simp only [Option.map_map, Function.comp_def]
  rw [outcome_of_not_given h, hkey]
  cases c.key? <;> rfl

/-- A session that could be prepared shows the first API key, unless the caller gives credentials. -/
theorem key?_of_view (policy : RefreshPolicy) {shared : SharedSettings}
    (hprepared : c.ArePrepared shared) (h : ¬c.Applies .given) :
    (c.view policy).toOption.bind SessionView.key? =
      c.key?.map fun first => (first.1.provider, first.2) := by
  simp only [view_of_arePrepared policy hprepared, outcome_of_key? h]
  cases c.key? with
  | some first => exact key?_shown c policy _ _
  | none =>
    rcases CredentialsSource.ofSettings_cases c.options.tools c.environment shared with
      ⟨source, hsource, hnone⟩ | ⟨error, herror, -⟩
    · rw [hsource]
      exact (key?_shown c policy _ source).trans hnone
    · rw [herror]
      rfl

/-- A session that could be prepared fails in the choice of credentials. -/
theorem error_of_view {policy : RefreshPolicy} {shared : SharedSettings} {error : SessionError}
    (hprepared : c.ArePrepared shared) (h : c.view policy = .error error) : error.IsOfChoice := by
  rw [view_of_arePrepared policy hprepared] at h
  by_cases hgiven : c.Applies .given
  · rw [outcome_of_given hgiven] at h
    cases h
  · rw [outcome_of_key? hgiven] at h
    cases hkey : c.key? with
    | some first =>
      rw [hkey] at h
      cases h
    | none =>
      rcases CredentialsSource.ofSettings_cases c.options.tools c.environment shared with
        ⟨source, hsource, -⟩ | ⟨other, hother, hothers⟩
      · rw [hkey, hsource] at h
        cases h
      · rw [hkey, hother] at h
        obtain rfl : other = error := Except.error.inj h
        exact hothers

/-! ## Other files -/

/-- What a session shows does not depend on the files once its source is chosen. -/
theorem shown_withFiles (c : Circumstances) (files : FileStore) (orders : Profile.Orders)
    (policy : RefreshPolicy) (region : Option String) (source : Option CredentialsSource) :
    (c.withFiles files orders).shown policy region source = c.shown policy region source := by
  cases source with
  | none => rfl
  | some source => cases source <;> rfl

/-- Prepared alike and with credentials from the same source, sessions show the same. -/
theorem view_eq_of_outcome_eq (policy : RefreshPolicy) {shared other : SharedSettings}
    (hprepared : c.ArePrepared shared) (hother : (c.withFiles files orders).ArePrepared other)
    (hregion : shared.region = other.region)
    (houtcome : c.outcome shared = (c.withFiles files orders).outcome other) :
    c.view policy = (c.withFiles files orders).view policy := by
  have hshown : (c.withFiles files orders).shown policy
      ((c.withFiles files orders).options.region (c.withFiles files orders).environment other) =
      c.shown policy (c.options.region c.environment shared) := by
    funext source
    rw [shown_withFiles, SessionOptions.region, ← hregion]
    rfl
  rw [view_of_arePrepared policy hprepared, view_of_arePrepared policy hother, hshown, houtcome]

/-- With credentials of the caller, or with the same first API key, files make no difference to the
source of credentials, unless the settings decide it and differ. -/
theorem outcome_withFiles {shared other : SharedSettings}
    (h : c.Applies .given ∨ c.key? = (c.withFiles files orders).key? ∧
      (c.key?.isSome ∨ CredentialsSource.ofSettings c.options.tools c.environment shared =
        CredentialsSource.ofSettings c.options.tools c.environment other)) :
    c.outcome shared = (c.withFiles files orders).outcome other := by
  by_cases hgiven : c.Applies .given
  · rw [outcome_of_given hgiven, outcome_of_given (c := c.withFiles files orders) hgiven]
  · obtain ⟨hkey, hsettings⟩ := h.resolve_left hgiven
    rw [outcome_of_key? hgiven, outcome_of_key? (c := c.withFiles files orders) hgiven, ← hkey]
    cases hfirst : c.key? with
    | some first => rfl
    | none =>
      rw [hfirst] at hsettings
      exact congrArg (some <$> ·) (hsettings.resolve_left nofun)

/-- Sessions that show the same show the same API key. -/
theorem key?_eq_of_view_eq {shared other : SharedSettings} (hprepared : c.ArePrepared shared)
    (hother : (c.withFiles files orders).ArePrepared other) (h : ¬c.Applies .given)
    (hview : c.view policy = (c.withFiles files orders).view policy) :
    c.key? = (c.withFiles files orders).key? := by
  have hkeys : c.key?.map (fun first => (first.1.provider, first.2)) =
      (c.withFiles files orders).key?.map fun first => (first.1.provider, first.2) := by
    rw [← key?_of_view policy hprepared h, hview, key?_of_view policy hother h]
  refine Option.map_injective ?_ hkeys
  intro first second heq
  obtain ⟨hplace, hgrant⟩ := Prod.mk.inj heq
  exact Prod.ext (KeyPlace.provider_injective hplace) hgrant

end Circumstances

end CloudSession
