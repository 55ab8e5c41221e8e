import CloudSession.Credentials.Error
import CloudSession.Iam.Issuer
import CloudSession.Profile.Load

/-!
# API keys

An API key is configured by the caller, by the environment or by a profile file, together with the
service instance and the place where tokens are requested. Whether a place holds a key is decided
once; a place without one stays invalid.
-/

namespace CloudSession

/-- What a place may configure for an API key. Empty texts count as not given. -/
structure ApiKeySettings where
  apiKey : Option String := none
  serviceInstance : Option String := none
  authEndpoint : Option String := none
  deriving DecidableEq, Repr

/-- An API key that is ready for use. -/
structure ApiKeyGrant where
  issuer : Iam.ApiKeyIssuer
  serviceInstance : Option String
  deriving DecidableEq, Repr

/-- A place for an API key, by the name of its provider: the key, or why there is none. -/
structure ApiKeyPlace where
  provider : String
  grant : Except BuildError ApiKeyGrant

namespace ApiKeySettings

/-- The API key of some settings; without one, the error says that `origin` holds none. -/
def grant (settings : ApiKeySettings) (origin : String) : Except BuildError ApiKeyGrant :=
  match settings.apiKey.filter (· ≠ "") with
  | none => .error (.apiKeyUnset origin)
  | some apiKey =>
    .ok
      { issuer := { apiKey, endpoint := Iam.endpointOrDefault settings.authEndpoint }
        serviceInstance := settings.serviceInstance.filter (· ≠ "") }

/-- The settings in the environment. -/
def ofEnvironment (env : Environment) : ApiKeySettings where
  apiKey := env.getNonEmpty? "IBM_API_KEY_ID"
  serviceInstance := env.getNonEmpty? "IBM_SERVICE_INSTANCE_ID"
  authEndpoint := env.getNonEmpty? "IBM_AUTH_ENDPOINT"

/-- The settings in a profile. -/
def ofProfile (profile : Profile.Entry) : ApiKeySettings where
  apiKey := profile.getNonEmpty? "ibm_api_key_id"
  serviceInstance := profile.getNonEmpty? "ibm_service_instance_id"
  authEndpoint := profile.getNonEmpty? "ibm_auth_endpoint"

end ApiKeySettings

namespace ApiKeyPlace

/-- Whether the place holds a key. -/
def isValid (place : ApiKeyPlace) : Bool :=
  place.grant.toOption.isSome

/-- The key that the caller gives. -/
def ofSettings (settings : ApiKeySettings) : ApiKeyPlace where
  provider := "StaticProviderNameIBM"
  grant := settings.grant "static configuration"

/-- The key in the environment. -/
def ofEnvironment (env : Environment) : ApiKeyPlace where
  provider := "EnvProviderNameIBM"
  grant := (ApiKeySettings.ofEnvironment env).grant "IBM_API_KEY_ID"

/-- The name of the provider that reads a kind of file. -/
def fileProvider : Profile.Kind → String
  | .credentials => "SharedCredentialsProviderNameIBM"
  | .config => "SharedConfigProviderNameIBM"

/-- What a kind of file is called. -/
def fileOrigin : Profile.Kind → String
  | .credentials => "the shared credentials file"
  | .config => "the shared config file"

/-- The key in the selected profile of a file that was loaded. -/
def grantOf (kind : Profile.Kind) :
    Except Profile.LoadError Profile.ProfileSet → Except BuildError ApiKeyGrant
  | .error error => .error (.sharedFile error.message)
  | .ok set =>
    match set.profile? set.selected with
    | none => .error (.sharedFile s!"failed to load profile, {set.selected}.")
    | some profile => (ApiKeySettings.ofProfile profile).grant (fileOrigin kind)

/-- The key in a profile file: in the file at `path`, else in the default file of the kind. -/
def ofFile (env : Environment) (files : FileStore) (kind : Profile.Kind)
    (path profile : Option String) (order : Profile.Enumeration := .asWritten) :
    Logged ApiKeyPlace := do
  let source : Profile.Source :=
    match path with
    | some path => .file kind path
    | none => .default kind
  let loaded ← Profile.loadRequired env files source profile order
  return { provider := fileProvider kind, grant := grantOf kind loaded }

end ApiKeyPlace

end CloudSession
