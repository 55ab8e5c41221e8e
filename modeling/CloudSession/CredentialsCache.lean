import CloudSession.Credentials.Error
import CloudSession.Gate

/-!
# Credentials caches

A cache keeps the credentials of a provider until the provider calls them expired, or until somebody
expires them. A caller passes a gate and holds it while it retrieves, so one retrieval runs at a time
and those who wait get its result. A retrieval that fails leaves the cached credentials alone and an
expiry that led to it in force.
-/

namespace CloudSession

/-- The credentials and who is retrieving them. -/
structure CredentialsCache where
  /-- The credentials of the last retrieval that succeeded. -/
  cached : Option Credentials := none
  /-- Whether the credentials were expired by hand. -/
  forced : Bool := false
  gate : Gate TaskId := {}
  deriving Repr

namespace CredentialsCache

/-- What a caller inside the gate does. -/
inductive Decision where
  /-- It takes the cached credentials. -/
  | serve (credentials : Credentials)
  /-- It retrieves new ones; `forced` says that the cached ones were expired by hand. -/
  | retrieve (forced : Bool)
  deriving Repr

/-- A caller arrives at the gate. -/
def arrive (cache : CredentialsCache) (task : TaskId) : CredentialsCache :=
  { cache with gate := cache.gate.arrive task }

/-- A caller goes away from the gate. -/
def leave (cache : CredentialsCache) (task : TaskId) : CredentialsCache :=
  { cache with gate := cache.gate.leave task }

/-- The caller inside the gate decides what to do, and takes note of an expiry by hand. The provider
is asked about expiry only if that matters. -/
def decide (cache : CredentialsCache) (expired : Except Overflow Bool) :
    Except Overflow (CredentialsCache × Decision) :=
  let noted := { cache with forced := false }
  match cache.cached with
  | none => .ok (noted, .retrieve cache.forced)
  | some credentials =>
    if cache.forced then .ok (noted, .retrieve true)
    else do return (noted, if ← expired then .retrieve false else .serve credentials)

/-- The caller inside the gate gets the result of its retrieval. -/
def settle (cache : CredentialsCache) (forced : Bool) : Retrieved → CredentialsCache
  | .ok credentials => { cache with cached := some credentials }
  | .error _ => if forced then { cache with forced := true } else cache

/-- Expires the credentials by hand. -/
def expire (cache : CredentialsCache) : CredentialsCache :=
  { cache with forced := true }

/-- Whether the next caller will not be served what is cached on account of expiry. -/
def isExpired (cache : CredentialsCache) (expired : Except Overflow Bool) : Except Overflow Bool :=
  if cache.forced then .ok true else expired

end CredentialsCache

end CloudSession
