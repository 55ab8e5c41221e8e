import CloudSession.Provider.Setup
import CloudSession.Session.Handlers
import CloudSession.Session.Plan

/-!
# Sessions

A session holds the configuration and the handlers that its clients start from. Copies share the
credentials, so that one retrieval serves them all, and nothing else.
-/

namespace CloudSession

/-- The configuration and the handlers for clients. -/
structure Session where
  config : Config := {}
  handlers : Handlers := {}

/-- What a client of a service needs. -/
structure ClientConfig where
  session : Session
  endpoint : ResolvedEndpoint

namespace CredentialsSource

/-- The name of the provider of keys in the environment. -/
def environmentKeysName : String := "EnvConfigCredentials"

/-- The name of the provider of keys of a profile. -/
def sharedKeysName : String := "SharedConfigCredentials"

/-- The provider of a key pair, under a name. -/
def keysProvider (keys : Option KeyPair) (name : String) : Provider :=
  match keys with
  | some keys => Provider.ofKeys keys.accessKeyId keys.secretAccessKey keys.sessionToken name
  | none => Provider.ofKeys "" "" none name

/-- The role of a grant, with a session that is named now unless the profile names it. -/
def roleOf (grant : RoleGrant) (now : Instant) : Role :=
  Role.make now grant.roleArn grant.settings.sessionName grant.settings.externalId
    grant.settings.mfaSerial (grant.settings.duration.getD Role.defaultDuration) Span.zero grant.mfa

/-- What the environment lacks. -/
def environmentMissing : Provider :=
  .diagnostic "EnvAccessKeyNotFound" "failed to find credentials in the environment."

/-- What the profile lacks. -/
def profileMissing (profile : String) : Provider :=
  .diagnostic "SharedCredsLoad" s!"failed to load profile, {profile}."

/-- Sets up the provider of a source. -/
def setUp (policy : RefreshPolicy) (verboseErrors : Bool) : CredentialsSource → Setup Provider
  | .apiKey provider grant => Setup.apiKey policy { provider, grant := .ok grant }
  | .environmentKeys keys => return keysProvider keys environmentKeysName
  | .role grant => do
    let role := roleOf grant (← get).now
    Setup.role role grant.assumer (keysProvider (some grant.source) sharedKeysName)
  | .sharedKeys keys => return keysProvider (some keys) sharedKeysName
  | .missing profile => Setup.chain verboseErrors [environmentMissing, profileMissing profile]

end CredentialsSource

namespace Session

/-- The session with its handlers in order: validation of parameters goes by the configuration. -/
def settled (session : Session) : Session :=
  { session with
    handlers :=
      session.handlers.settleValidation (session.config.disableValidation.getD false) }

/-- Sets up the session of a plan. -/
def ofPlan (policy : RefreshPolicy) (plan : SessionPlan) : Setup Session := do
  let config ←
    match plan.source with
    | none => pure plan.config
    | some source =>
      let provider ← source.setUp policy (plan.config.verboseErrors.getD false)
      pure { plan.config with credentials := some (← Setup.cache provider) }
  return settled { config, handlers := Handlers.defaults }

/-- Sets up a session from the wishes of the caller, the environment and the files. -/
def make (policy : RefreshPolicy) (options : SessionOptions) :
    Setup (Except SessionError Session) := do
  let world ← get
  let plan := options.plan world.environment world.files world.orders
    world.libraries.tls
  match ← Setup.ofLogged plan.run with
  | .error error => return .error error
  | .ok plan => return .ok (← ofPlan policy plan)

/-- A copy of the session with configurations merged into its own. -/
def copy (session : Session) (overrides : List Config) : Session :=
  settled { session with config := session.config.copy overrides }

/-- The endpoint that the configuration sets, which needs no resolution. It is signed for the region
of the configuration. -/
def explicitEndpoint (config : Config) (endpoint : String) : ResolvedEndpoint where
  url := Endpoint.addScheme endpoint (config.disableSsl.getD false)
  signingRegion := config.region

/-- The endpoint of a service: the one that is set, else the one that the resolver answers. -/
def endpointFor (config : Config) (service : String) : Except EndpointError ResolvedEndpoint :=
  match config.endpoint with
  | some endpoint => .ok (explicitEndpoint config endpoint)
  | none =>
    (config.resolver.getD EndpointResolver.standard) service config.region config.endpointOptions

/-- What a client of a service needs. -/
def clientConfig (session : Session) (service : String) (overrides : List Config) :
    Except SessionError ClientConfig :=
  let session := session.copy overrides
  match endpointFor session.config service with
  | .ok endpoint => .ok { session, endpoint }
  | .error error => .error (.endpoint error)

/-- What a client needs whose endpoint is only ever the one that is set, or else empty. -/
def clientConfigUnresolved (session : Session) (overrides : List Config) : ClientConfig :=
  let session := session.copy overrides
  { session
    endpoint := (session.config.endpoint.map (explicitEndpoint session.config)).getD {} }

end Session

end CloudSession
