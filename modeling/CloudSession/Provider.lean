import CloudSession.Provider.ApiKey
import CloudSession.World

/-!
# Providers

A provider retrieves credentials and says whether those that it retrieved last have expired.
Providers are built from one another; what they remember between retrievals is in the world, under
the name that they carry.
-/

namespace CloudSession

/-- A provider of credentials. -/
inductive Provider where
  /-- Credentials that are there already. -/
  | fixed (credentials : Credentials)
  /-- A key pair that may be empty. -/
  | keys (credentials : Credentials)
  /-- A provider that only says what is missing. -/
  | diagnostic (code detail : String)
  /-- Tokens of a token manager, for a service instance. -/
  | tokens (name : String) (manager : ManagerId) (serviceInstance : Option String)
  /-- A provider that could not be built. -/
  | invalid (name : String) (error : BuildError)
  /-- Tokens of a trusted profile, for a service instance. -/
  | trustedProfile (issuer : Iam.ContainerIssuer) (serviceInstance : Option String)
  /-- A provider of the caller. -/
  | scripted (script : Nat)
  /-- Providers that are asked one after the other. -/
  | chain (current : Nat) (verbose : Bool) (links : List Provider)
  /-- A role that is assumed with the credentials of a source. -/
  | assumed (expiry : Nat) (role : Role) (assumer : Nat) (source : Provider)
  /-- A provider behind a cache. -/
  | cached (cache : Nat) (inner : Provider)
  deriving Inhabited

/-- A provider behind a cache. -/
structure CachedProvider where
  cache : Nat
  inner : Provider

namespace Provider

/-- The name of the provider of trusted profiles. -/
def trustedProfileName : String := "TrustedProfileProviderNameIBM"

/-- The name of the provider with a token source of the caller. -/
def customName : String := "CustomInitFuncProviderNameIBM"

/-- The name of the provider of keys that the caller gives. -/
def keysName : String := "StaticProvider"

mutual

/-- Whether the credentials that the provider retrieved last have expired. Providers of tokens always
say so, since a token manager knows better when its token is to be refreshed. -/
def isExpired (world : World) : Provider → Except Overflow Bool
  | .fixed _ => .ok false
  | .keys _ => .ok false
  | .diagnostic _ _ => .ok true
  | .tokens _ _ _ => .ok true
  | .invalid _ _ => .ok true
  | .trustedProfile _ _ => .ok true
  | .scripted script => .ok (world.providers.getD script {}).expired
  | .chain current _ links => isExpiredAt world (world.chains.getD current none) links
  | .assumed expiry role _ _ => role.isExpired (world.roles.getD expiry none) world.now
  | .cached cache inner => (world.cache cache).isExpired (isExpired world inner)

/-- Whether the provider at a place of a chain says that its credentials have expired. Where there is
none, it counts as saying so. -/
def isExpiredAt (world : World) (place : Option Nat) : List Provider → Except Overflow Bool
  | [] => .ok true
  | link :: rest =>
    match place with
    | none => .ok true
    | some 0 => isExpired world link
    | some (n + 1) => isExpiredAt world (some n) rest

end

/-- The token manager behind a provider. -/
def manager? : Provider → Option ManagerId
  | .tokens _ manager _ => some manager
  | .cached _ inner => inner.manager?
  | _ => none

end Provider

/-- Whether the credentials of the cache are to be retrieved again. -/
def CachedProvider.isExpired (cached : CachedProvider) (world : World) : Except Overflow Bool :=
  (world.cache cached.cache).isExpired (cached.inner.isExpired world)

end CloudSession
