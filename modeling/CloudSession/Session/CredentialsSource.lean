import CloudSession.Provider.ApiKey
import CloudSession.Role
import CloudSession.Session.EnvironmentSettings
import CloudSession.Session.SharedSettings

/-!
# Sources of credentials

A session takes its credentials from the first source that applies: an API key in the environment or
in a profile file, a credential source that the profile names, keys in the environment, a role of the
profile, keys of the profile. Where none applies, every retrieval says what was missing.
-/

namespace CloudSession

/-- What roles are assumed with: a second factor and an assumer, if the caller gives them. -/
structure RoleTools where
  mfa : Option (Except MfaError String) := none
  assumer : Option Nat := none

/-- A role that is ready to be assumed with keys. -/
structure RoleGrant where
  roleArn : String
  settings : RoleSettings
  source : KeyPair
  mfa : Except MfaError String
  assumer : Nat

/-- Where a session takes its credentials from. -/
inductive CredentialsSource where
  /-- An API key, by the name of its provider. -/
  | apiKey (provider : String) (grant : ApiKeyGrant)
  /-- Keys in the environment; none at all fail every retrieval. -/
  | environmentKeys (keys : Option KeyPair)
  /-- A role. -/
  | role (grant : RoleGrant)
  /-- Keys of the profile. -/
  | sharedKeys (keys : KeyPair)
  /-- Nothing: retrievals fail on account of the environment and of the profile. -/
  | missing (profile : String)

namespace CredentialsSource

/-- The API key of a place, if the place holds one. -/
def ofPlace? (place : ApiKeyPlace) : Option CredentialsSource :=
  place.grant.toOption.map (.apiKey place.provider)

/-- The first API key: in the environment, in the credentials file, in the config file. Files are read
only as far as needed. -/
def apiKey? (env : Environment) (files : FileStore) (alone : Profile.Kind → Profile.Enumeration)
    (profile : String) : Logged (Option CredentialsSource) := do
  let inFile (kind : Profile.Kind) : Logged ApiKeyPlace :=
    ApiKeyPlace.ofFile env files kind none (some profile) (alone kind)
  match ofPlace? (ApiKeyPlace.ofEnvironment env) with
  | some source => return some source
  | none =>
    match ofPlace? (← inFile .credentials) with
    | some source => return some source
    | none => return ofPlace? (← inFile .config)

/-- The credential source that a profile names. A source profile rules it out, and only the
environment can be used. -/
def named (keys : Option KeyPair) (role : RoleSettings) (name : String) :
    Except SessionError CredentialsSource :=
  if role.sourceProfile.isSome then .error .sourceCollision
  else if name = "Environment" then .ok (.environmentKeys keys)
  else .error .invalidSource

/-- The role of a profile. It needs an assumer, and a second factor if it names a serial number. -/
def ofRole (tools : RoleTools) (settings : RoleSettings) (roleArn : String) (source : KeyPair) :
    Except SessionError CredentialsSource :=
  if settings.mfaSerial.isSome && tools.mfa.isNone then
    .error .mfaUnset
  else
    match tools.assumer with
    | none => .error (.assumerUnset roleArn)
    | some assumer =>
      .ok (.role { roleArn, settings, source, assumer, mfa := tools.mfa.getD (.error .notConfigured) })

/-- The role of a profile, if it has one with a source. -/
def ofRole? (tools : RoleTools) (shared : SharedSettings) :
    Option (Except SessionError CredentialsSource) := do
  let roleArn ← shared.role.roleArn
  let source ← shared.roleSource
  some (ofRole tools shared.role roleArn source)

/-- The first source other than an API key. Credential source and role of the profile count only while
the shared config file is enabled. -/
def ofSettings (tools : RoleTools) (environment : EnvironmentSettings) (shared : SharedSettings) :
    Except SessionError CredentialsSource :=
  match shared.role.credentialSource.filter fun _ => environment.sharedConfig with
  | some name => named environment.keys shared.role name
  | none =>
    match environment.keys with
    | some keys => .ok (.environmentKeys (some keys))
    | none =>
      match (ofRole? tools shared).filter fun _ => environment.sharedConfig with
      | some outcome => outcome
      | none =>
        match shared.keys with
        | some keys => .ok (.sharedKeys keys)
        | none => .ok (.missing environment.profile)

/-- The source from which a session takes its credentials. -/
def choose (env : Environment) (files : FileStore) (alone : Profile.Kind → Profile.Enumeration)
    (tools : RoleTools) (environment : EnvironmentSettings) (shared : SharedSettings) :
    Logged (Except SessionError CredentialsSource) := do
  match ← apiKey? env files alone environment.profile with
  | some source => return .ok source
  | none => return ofSettings tools environment shared

end CredentialsSource

end CloudSession
