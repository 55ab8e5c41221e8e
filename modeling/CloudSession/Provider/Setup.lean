import CloudSession.Provider

/-!
# Setting up providers

A provider that remembers something gets a place for it in the world when it is set up.
-/

namespace CloudSession

/-- A computation that sets things up in the world. -/
abbrev Setup := StateM World

namespace Setup

/-- Notes the warnings of a computation and goes on with its value. -/
def ofLogged {α : Type} (logged : Logged α) : Setup α := do
  modify (·.warnAll logged.warnings)
  return logged.value

/-- A token manager. -/
def manager (policy : RefreshPolicy) (issuer : Issuer) : Setup ManagerId :=
  modifyGet fun world =>
    (world.managers.length,
     { world with managers := world.managers ++ [{ manager := { policy }, issuer }] })

/-- A token source of the caller. -/
def issuer (script : IssuerScript) : Setup Issuer :=
  modifyGet fun world =>
    (.scripted world.issuers.length, { world with issuers := world.issuers ++ [script] })

/-- A cache in front of a provider. -/
def cache (inner : Provider) : Setup CachedProvider :=
  modifyGet fun world =>
    ({ cache := world.caches.length, inner }, { world with caches := world.caches ++ [{}] })

/-- A chain of providers. -/
def chain (verbose : Bool) (links : List Provider) : Setup Provider :=
  modifyGet fun world =>
    (.chain world.chains.length verbose links, { world with chains := world.chains ++ [none] })

/-- An assumer of roles. -/
def assumer (answers : List (Except String Credentials)) : Setup Nat :=
  modifyGet fun world =>
    (world.assumers.length, { world with assumers := world.assumers ++ [answers] })

/-- A role that is assumed with the credentials of a source. -/
def role (role : Role) (assumer : Nat) (source : Provider) : Setup Provider :=
  modifyGet fun world =>
    (.assumed world.roles.length role assumer source, { world with roles := world.roles ++ [none] })

/-- A provider of the caller. -/
def scripted (answers : List (Span × Retrieved)) : Setup Provider :=
  modifyGet fun world =>
    (.scripted world.providers.length,
     { world with providers := world.providers ++ [{ answers }] })

/-- The provider of tokens for an API key. -/
def apiKey (policy : RefreshPolicy) (place : ApiKeyPlace) : Setup Provider :=
  match place.grant with
  | .error error => return .invalid place.provider error
  | .ok grant =>
    return .tokens place.provider (← manager policy (.apiKey grant.issuer)) grant.serviceInstance

/-- The provider of tokens from a token source of the caller. -/
def custom (policy : RefreshPolicy) (script : IssuerScript) (serviceInstance : Option String) :
    Setup Provider := do
  let source ← issuer script
  return .tokens Provider.customName (← manager policy source) (serviceInstance.filter (· ≠ ""))

end Setup

namespace Provider

/-- The provider of tokens for a trusted profile. It needs the path of the compute resource token, and
the name or the ID of the profile. -/
def ofTrustedProfile (tokenFile profileName profileId authEndpoint serviceInstance : Option String) :
    Provider :=
  let name := profileName.filter (· ≠ "")
  let id := profileId.filter (· ≠ "")
  match tokenFile.filter (· ≠ "") with
  | none => .invalid trustedProfileName .tokenFileUnset
  | some path =>
    if name.isNone && id.isNone then
      .invalid trustedProfileName .trustedProfileUnset
    else
      .trustedProfile (Iam.ContainerIssuer.make path name id authEndpoint)
        (serviceInstance.filter (· ≠ ""))

/-- The provider of a key pair; an empty session token counts as none. -/
def ofKeys (accessKeyId secretAccessKey : String) (sessionToken : Option String) (name : String) :
    Provider :=
  .keys
    (Credentials.ofKeys accessKeyId secretAccessKey (sessionToken.filter (· ≠ "")) name)

end Provider

end CloudSession
