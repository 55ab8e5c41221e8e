import CloudSession.Session

/-!
# The rules for credentials

Where a session takes its credentials from, said by rules that stand in an order: each tells when it
applies. The rules speak of the wishes of the caller, the variables of the environment and the
properties of the selected profile, once with all files merged and once in one file alone.
-/

namespace CloudSession

/-- What decides where credentials come from: the wishes of the caller, and the world in which the
session is made. -/
structure Circumstances where
  options : SessionOptions
  world : World

/-- The variables of the environment. -/
abbrev Circumstances.env (c : Circumstances) : Environment :=
  c.world.environment

/-- The files. -/
abbrev Circumstances.files (c : Circumstances) : FileStore :=
  c.world.files

/-- The orders in which the sections of files are gone through. -/
abbrev Circumstances.orders (c : Circumstances) : Profile.Orders :=
  c.world.orders

/-- The library that encrypts connections. -/
abbrev Circumstances.tls (c : Circumstances) : TlsLibrary :=
  c.world.libraries.tls

/-- The places of API keys. -/
inductive KeyPlace where
  | environment
  | file (kind : Profile.Kind)
  deriving DecidableEq, Repr

/-- The rules by which a session takes its credentials. -/
inductive Rule where
  /-- The caller gives credentials. -/
  | given
  /-- There is an API key. -/
  | apiKey (place : KeyPlace)
  /-- The profile names a credential source. -/
  | named
  /-- The environment has a pair of keys. -/
  | environmentKeys
  /-- The profile has a role and a source profile. -/
  | role
  /-- The profile has a pair of keys. -/
  | profileKeys
  /-- There are no credentials. -/
  | missing
  deriving DecidableEq, Repr

/-- The rules, those that come first first. -/
def Rule.all : List Rule :=
  [.given, .apiKey .environment, .apiKey (.file .credentials), .apiKey (.file .config), .named,
    .environmentKeys, .role, .profileKeys, .missing]

/-- The name of the provider for the API key of a place. -/
def KeyPlace.provider : KeyPlace → String
  | .environment => "EnvProviderNameIBM"
  | .file .credentials => "SharedCredentialsProviderNameIBM"
  | .file .config => "SharedConfigProviderNameIBM"

/-- A pair of keys that is made of two halves, which have to be there, and of a session token, which
need not be. -/
structure KeyPair.IsMadeOf (keys : KeyPair)
    (accessKeyId secretAccessKey sessionToken : Option String) : Prop where
  accessKeyId : accessKeyId = some keys.accessKeyId
  secretAccessKey : secretAccessKey = some keys.secretAccessKey
  sessionToken : sessionToken = keys.sessionToken

namespace Circumstances

variable (c : Circumstances)

/-- Whether the shared config file is enabled: by the caller, or else by the environment unless the
caller disables it. -/
def IsSharedConfigEnabled : Prop :=
  c.options.sharedConfig = .enabled ∨
    c.options.sharedConfig = .fromEnvironment ∧
      ∃ value ∈ ["1", "t", "T", "true", "TRUE", "True"],
        c.env.get? "AWS_SDK_LOAD_CONFIG" = some value

/-- Whether shared settings are enabled can be computed. -/
instance : Decidable c.IsSharedConfigEnabled :=
  inferInstanceAs (Decidable (_ ∨ _ ∧ ∃ value ∈ _, _))

/-- The names that the selected profile may have, those that count first first. -/
def profileNames : List (Option String) :=
  [c.options.profile, c.env.get? "AWS_PROFILE"] ++
    if c.IsSharedConfigEnabled then [c.env.get? "AWS_DEFAULT_PROFILE"] else []

/-- The selected profile: the first name that is given and not empty, else `default`. -/
def profile : String :=
  (c.profileNames.findSome? (·.filter (· ≠ ""))).getD "default"

/-- The profile files: those of the caller, else the default ones. -/
def sources : List Profile.Source :=
  c.options.sources.getD
    (if c.IsSharedConfigEnabled then [.default .config, .default .credentials]
     else [.default .credentials])

/-- The profiles of all files, if every file can be parsed. -/
def merged : Option Profile.ProfileSet :=
  (Profile.load c.env c.files c.sources (some c.profile) c.orders.listed).value.toOption

/-- The profiles of the default file of a kind, if it can be read and parsed. -/
def alone (kind : Profile.Kind) : Option Profile.ProfileSet :=
  (Profile.loadRequired c.env c.files (.default kind) (some c.profile)
    (c.orders.alone kind)).value.toOption

/-- A property of a profile with all files merged, if it is not empty. -/
def propertyOf? (profile key : String) : Option String := do
  let set ← c.merged
  let entry ← set.profile? profile
  entry.getNonEmpty? key

/-- A property of the selected profile with all files merged, if it is not empty. -/
def property? (key : String) : Option String :=
  c.propertyOf? c.profile key

/-- A property of the selected profile in the default file of a kind, if it is not empty. -/
def propertyIn? (kind : Profile.Kind) (key : String) : Option String := do
  let set ← c.alone kind
  let entry ← set.profile? c.profile
  entry.getNonEmpty? key

/-- What a place says about an API key. -/
def apiKeySettings : KeyPlace → ApiKeySettings
  | .environment =>
    { apiKey := c.env.getNonEmpty? "IBM_API_KEY_ID"
      serviceInstance := c.env.getNonEmpty? "IBM_SERVICE_INSTANCE_ID"
      authEndpoint := c.env.getNonEmpty? "IBM_AUTH_ENDPOINT" }
  | .file kind =>
    { apiKey := c.propertyIn? kind "ibm_api_key_id"
      serviceInstance := c.propertyIn? kind "ibm_service_instance_id"
      authEndpoint := c.propertyIn? kind "ibm_auth_endpoint" }

/-- The keys are those in the environment. -/
def AreInEnvironment (keys : KeyPair) : Prop :=
  keys.IsMadeOf (c.env.firstNonEmpty ["AWS_ACCESS_KEY_ID", "AWS_ACCESS_KEY"])
    (c.env.firstNonEmpty ["AWS_SECRET_ACCESS_KEY", "AWS_SECRET_KEY"])
    (c.env.firstNonEmpty ["AWS_SESSION_TOKEN"])

/-- The keys are those of a profile with all files merged. -/
def AreInProfile (profile : String) (keys : KeyPair) : Prop :=
  keys.IsMadeOf (c.propertyOf? profile "aws_access_key_id")
    (c.propertyOf? profile "aws_secret_access_key") (c.propertyOf? profile "aws_session_token")

/-- When a rule applies. -/
def Applies : Rule → Prop
  | .given => c.options.config.credentials.isSome
  | .apiKey place => (c.apiKeySettings place).apiKey.isSome
  | .named => c.IsSharedConfigEnabled ∧ (c.property? "credential_source").isSome
  | .environmentKeys => ∃ keys, c.AreInEnvironment keys
  | .role =>
    c.IsSharedConfigEnabled ∧ (c.property? "role_arn").isSome ∧
      (c.property? "source_profile").isSome
  | .profileKeys => ∃ keys, c.AreInProfile c.profile keys
  | .missing => True

/-- The rule is the first one that applies. -/
def IsFirst (rule : Rule) : Prop :=
  ∃ before after, Rule.all = before ++ rule :: after ∧ c.Applies rule ∧
    ∀ other ∈ before, ¬c.Applies other

/-- Why a rule that applies gives no session: the profile names a source profile beside a credential
source, or a credential source other than the environment; or its role lacks the second factor that
it needs, or an assumer. -/
inductive Fails : Rule → SessionError → Prop
  | sourceCollision (hprofile : (c.property? "source_profile").isSome) :
    Fails .named .sourceCollision
  | invalidSource (hprofile : c.property? "source_profile" = none)
      (hsource : c.property? "credential_source" ≠ some "Environment") :
    Fails .named .invalidSource
  | mfaUnset (hserial : (c.property? "mfa_serial").isSome) (hmfa : c.options.tools.mfa = none) :
    Fails .role .mfaUnset
  | assumerUnset {roleArn : String} (hrole : c.property? "role_arn" = some roleArn)
      (hmfa : (c.property? "mfa_serial").isSome → c.options.tools.mfa ≠ none)
      (hassumer : c.options.tools.assumer = none) :
    Fails .role (.assumerUnset roleArn)

/-- How long credentials of the role are to last: a count of seconds, if the profile gives one. -/
def duration? : Option Span :=
  ((c.property? "duration_seconds").bind Text.count?).map Span.ofSeconds

/-- What the selected profile says about a role. -/
def roleSettings : RoleSettings where
  roleArn := c.property? "role_arn"
  sourceProfile := c.property? "source_profile"
  credentialSource := c.property? "credential_source"
  externalId := c.property? "external_id"
  mfaSerial := c.property? "mfa_serial"
  sessionName := c.property? "role_session_name"
  duration := c.duration?

/-- The role of the profile, with a session that is named now unless the profile names it. -/
def roleOf (now : Instant) (roleArn : String) : Role :=
  Role.make now roleArn (c.property? "role_session_name") (c.property? "external_id")
    (c.property? "mfa_serial") (c.duration?.getD Role.defaultDuration) Span.zero
    (c.options.tools.mfa.getD (.error .notConfigured))

/-- The provider of a pair of keys. -/
def keysProvider (keys : KeyPair) (name : String) : Provider :=
  .keys (Credentials.ofKeys keys.accessKeyId keys.secretAccessKey keys.sessionToken name)

/-- The provider that a rule gives a session, and what the world `after` remembers for it. -/
inductive Provides (policy : RefreshPolicy) (after : World) : Rule → Provider → Prop
  | apiKey {place : KeyPlace} {key : String} (hkey : (c.apiKeySettings place).apiKey = some key)
      (hmanagers : after.managers = c.world.managers ++
        [{ manager := { policy }
           issuer := .apiKey
            { apiKey := key
              endpoint := Iam.endpointOrDefault (c.apiKeySettings place).authEndpoint } }]) :
    Provides policy after (.apiKey place)
      (.tokens place.provider c.world.managers.length (c.apiKeySettings place).serviceInstance)
  | named {keys : KeyPair} (hkeys : c.AreInEnvironment keys) :
    Provides policy after .named (keysProvider keys "EnvConfigCredentials")
  /-- Without a pair in the environment, the provider has an empty one. -/
  | namedEmpty (hkeys : ∀ keys, ¬c.AreInEnvironment keys) :
    Provides policy after .named
      (keysProvider { accessKeyId := "", secretAccessKey := "" } "EnvConfigCredentials")
  | environmentKeys {keys : KeyPair} (hkeys : c.AreInEnvironment keys) :
    Provides policy after .environmentKeys (keysProvider keys "EnvConfigCredentials")
  | role {roleArn profile : String} {keys : KeyPair} {assumer : Nat}
      (hrole : c.property? "role_arn" = some roleArn)
      (hprofile : c.property? "source_profile" = some profile)
      (hkeys : c.AreInProfile profile keys) (hassumer : c.options.tools.assumer = some assumer)
      (hroles : after.roles = c.world.roles ++ [none]) :
    Provides policy after .role
      (.assumed c.world.roles.length (c.roleOf c.world.now roleArn) assumer
        (keysProvider keys "SharedConfigCredentials"))
  | profileKeys {keys : KeyPair} (hkeys : c.AreInProfile c.profile keys) :
    Provides policy after .profileKeys (keysProvider keys "SharedConfigCredentials")
  | missing (hchains : after.chains = c.world.chains ++ [none]) :
    Provides policy after .missing
      (.chain c.world.chains.length (c.options.config.verboseErrors.getD false)
        [.diagnostic "EnvAccessKeyNotFound" "failed to find credentials in the environment.",
          .diagnostic "SharedCredsLoad" s!"failed to load profile, {c.profile}."])

/-- The credentials that a rule gives a session: those of the caller, or else a provider behind a
cache of its own. -/
inductive Gives (policy : RefreshPolicy) (after : World) : Rule → CachedProvider → Prop
  | given {credentials : CachedProvider}
      (hgiven : c.options.config.credentials = some credentials) :
    Gives policy after .given credentials
  | provided {rule : Rule} {provider : Provider}
      (hprovider : c.Provides policy after rule provider)
      (hcaches : after.caches = c.world.caches ++ [({} : CredentialsCache)]) :
    Gives policy after rule { cache := c.world.caches.length, inner := provider }

/-- What the environment says about a session. -/
abbrev environment : EnvironmentSettings :=
  (EnvironmentSettings.load c.env c.options.sharedConfig c.options.profile).value

/-- What comes before the choice of credentials succeeds: there is something to send requests, and the
profile files say `shared`. -/
structure ArePrepared (shared : SharedSettings) : Prop where
  client : ∃ bundle client, c.options.bundle c.environment c.files = .ok bundle ∧
    SessionOptions.client c.tls c.options.config.httpClient bundle = .ok client
  shared : (SharedSettings.load c.env c.files c.orders.listed
    (c.options.profileSources c.environment) c.environment.profile).value = .ok shared

/-- The session is made by a rule: it is missing exactly if the rule fails, for the same reason, and
else has the credentials that the rule gives. -/
structure Follows (policy : RefreshPolicy) (rule : Rule) : Prop where
  fails (error : SessionError) : ((Session.make policy c.options).run c.world).1 = .error error ↔
    c.Fails rule error
  gives {session : Session} {after : World}
    (h : (Session.make policy c.options).run c.world = (.ok session, after)) :
    ∃ credentials, session.config.credentials = some credentials ∧
      c.Gives policy after rule credentials

end Circumstances

end CloudSession
