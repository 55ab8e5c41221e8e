import CloudSession.Certificate.Encoding
import CloudSession.Session.Config
import CloudSession.Session.CredentialsSource

/-!
# Plans for sessions

What a session will be is decided from the wishes of the caller, the environment and the files. What
the caller wishes comes first. The sections of files are gone through in orders that are up to chance.
-/

namespace CloudSession

/-- What the caller wishes. -/
structure SessionOptions where
  config : Config := {}
  profile : Option String := none
  sharedConfig : SharedConfigState := .fromEnvironment
  /-- The profile files to read, instead of the default ones. -/
  sources : Option (List Profile.Source) := none
  tools : RoleTools := {}
  /-- A bundle of certificates to trust. -/
  caBundle : Option (List UInt8) := none

/-- What a session will be: its configuration, and its source of credentials unless the configuration
has credentials. -/
structure SessionPlan where
  config : Config
  source : Option CredentialsSource

namespace SessionOptions

/-- The bundle of certificates to trust: that of the caller, else that of the environment. -/
def bundle (options : SessionOptions) (environment : EnvironmentSettings) (files : FileStore) :
    Except SessionError (Option (List UInt8)) :=
  match options.caBundle, environment.caBundle with
  | some bundle, _ => .ok (some bundle)
  | none, none => .ok none
  | none, some path =>
    match files.read? path with
    | some bytes => .ok (some bytes)
    | none => .error (.caBundle .unreadable)

/-- What sends requests. A bundle of certificates rules out a client of the caller. -/
def client (tls : TlsLibrary) (given : Option HttpClient) :
    Option (List UInt8) → Except SessionError HttpClient
  | none => .ok (given.getD .standard)
  | some bundle =>
    if given.isSome then
      .error (.caBundle .clientGiven)
    else
      match Certificate.load bundle tls with
      | .ok certificates => .ok (.trusting certificates)
      | .error _ => .error (.caBundle .invalid)

/-- The profile files to read: those of the caller, else the default ones, of which the config file
has to be enabled. -/
def profileSources (options : SessionOptions) (environment : EnvironmentSettings) :
    List Profile.Source :=
  options.sources.getD
    (if environment.sharedConfig then Profile.Source.defaults else Profile.Source.credentialsOnly)

/-- The region: that of the caller, else of the environment, else of the profile while the shared
config file is enabled. -/
def region (options : SessionOptions) (environment : EnvironmentSettings)
    (shared : SharedSettings) : Option String :=
  options.config.region <|> environment.region <|>
    if environment.sharedConfig then shared.region else none

/-- The plan for a session. -/
def plan (options : SessionOptions) (env : Environment) (files : FileStore)
    (orders : Profile.Orders) (tls : TlsLibrary) : ExceptT SessionError Logged SessionPlan := do
  let environment ← EnvironmentSettings.load env options.sharedConfig options.profile
  let bundle ← liftExcept (options.bundle environment files)
  let httpClient ← liftExcept (client tls options.config.httpClient bundle)
  let shared ← ExceptT.mk
    (SharedSettings.load env files orders.listed (options.profileSources environment)
      environment.profile)
  let source ←
    if options.config.credentials.isSome then
      pure none
    else
      some <$> ExceptT.mk
        (CredentialsSource.choose env files orders.alone options.tools environment shared)
  return {
    config :=
      { options.config with
        region := options.region environment shared
        httpClient := some httpClient
        resolver := options.config.resolver <|> some EndpointResolver.standard }
    source }
where
  /-- An outcome without warnings. -/
  liftExcept {α : Type} (outcome : Except SessionError α) : ExceptT SessionError Logged α :=
    ExceptT.mk (pure outcome)

end SessionOptions

end CloudSession
