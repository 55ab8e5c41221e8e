import CloudSession.Iam.Exchange
import CloudSession.Provider
import CloudSession.TokenManager.Refresh

/-!
# Retrieving credentials

Each kind of provider as an activity. A chain asks its providers in order and takes the first success;
a role asks its source, then the second factor, then the assumer; a cache asks its provider when it
has nothing to serve.
-/

namespace CloudSession

/-- Remembers which provider of a chain made its last credentials. -/
def World.setCurrent (world : World) (chain : Nat) (current : Option Nat) : World :=
  { world with chains := world.chains.set chain current }

/-- Asks the providers of a chain in order, from the one at place `place` on. The errors are those of
the providers before, if they are to be told. -/
def askInOrder (chain : Nat) (verbose : Bool) (place : Nat) (errors : List CredentialsError) :
    List (Activity Retrieved) → Activity Retrieved
  | [] => do
    Activity.modify (·.setCurrent chain none)
    return .error (.noValidProviders errors)
  | link :: rest => do
    match ← link with
    | .ok credentials =>
      Activity.modify (·.setCurrent chain (some place))
      return .ok credentials
    | .error error =>
      askInOrder chain verbose (place + 1) (if verbose then errors ++ [error] else errors) rest

/-- Asks an assumer for credentials of a role. -/
def World.assume (world : World) (assumer : Nat) (source : Credentials) (request : RoleRequest) :
    World × Except String Credentials :=
  let (answers, answer) :=
    match world.assumers.getD assumer [] with
    | [] => ([], .error "script exhausted")
    | answer :: rest => (rest, answer)
  ({ world with
      assumers := world.assumers.set assumer answers
      roleRequests := world.roleRequests ++ [(source, request)] },
   answer)

/-- Assumes a role with the credentials of `source`, and remembers when its credentials expire. -/
def Role.retrieve (role : Role) (expiry assumer : Nat) (source : Activity Retrieved) :
    Activity Retrieved := do
  match ← source with
  | .error error => return .error error
  | .ok source =>
    match role.completed ((← Activity.world).secondFactor role) with
    | .error error => return .error (.providerError error.message)
    | .ok request =>
      match ← Activity.update fun world => world.assume assumer source request with
      | .error detail => return .error (.providerError detail)
      | .ok assumed =>
        Activity.modify fun world => { world with roles := world.roles.set expiry assumed.expiry }
        return .ok (Role.handOut assumed)

/-- Changes a cache and wakes the task that this lets through its gate. -/
def alterCacheAndWake (id : Nat) (f : CredentialsCache → CredentialsCache) : Activity Unit := do
  let before := (← Activity.world).cache id
  let after := f before
  Activity.modify fun world => world.alterCache id fun _ => after
  if after.gate.holder ≠ before.gate.holder then
    Activity.notify after.gate.holder

/-- Once inside the gate of a cache, serves the cached credentials or retrieves others by `retrieve`.
`expired` tells whether the provider calls its credentials expired. -/
def serveOrRetrieve (id : Nat) (me : TaskId) (expired : World → Except Overflow Bool)
    (retrieve : Activity Retrieved) : Activity Retrieved := do
  let world ← Activity.world
  let (cache, decision) ← Activity.check ((world.cache id).decide (expired world))
  Activity.modify fun world => world.alterCache id fun _ => cache
  match decision with
  | .serve credentials =>
    alterCacheAndWake id (·.leave me)
    return .ok credentials
  | .retrieve forced =>
    let result ← retrieve
    alterCacheAndWake id fun cache => (cache.settle forced result).leave me
    return result

/-- The credentials of a cache, retrieved by `retrieve` when there are none to serve. -/
def getCached (id : Nat) (expired : World → Except Overflow Bool) (retrieve : Activity Retrieved) :
    Activity Retrieved := do
  let me ← Activity.me
  Activity.modify fun world => world.alterCache id (·.arrive me)
  if ((← Activity.world).cache id).gate.holder ≠ some me then
    Activity.wait
  serveOrRetrieve id me expired retrieve

/-- The next answer of a provider of the caller. -/
def World.askProvider (world : World) (script : Nat) : World × Underway Retrieved :=
  let entry := world.providers.getD script {}
  match entry.answers with
  | [] => (world, .ready (.error (.notLoaded "Exhausted" "script exhausted")))
  | (delay, answer) :: rest =>
    ({ world with providers := world.providers.set script { entry with answers := rest } },
     { delay, arrive := fun later => (later, answer) })

/-- Credentials that carry a token, or the error with which it was asked for in vain. -/
def credentialsOfToken (name : String) (serviceInstance : Option String) :
    Except TokenError Token → Retrieved
  | .ok token => .ok (Credentials.ofToken token serviceInstance name)
  | .error error => .error (.tokenRetrieve name (.token error))

/-- Keys, both of which have to be there. -/
def checkedKeys (credentials : Credentials) : Retrieved :=
  if credentials.accessKeyId = "" || credentials.secretAccessKey = "" then
    .error (.notLoaded "EmptyStaticCreds" "static credentials are empty")
  else
    .ok credentials

namespace Provider

mutual

/-- Retrieves credentials. -/
def retrieve : Provider → Activity Retrieved
  | .fixed credentials => pure (.ok credentials)
  | .keys credentials => pure (checkedKeys credentials)
  | .diagnostic code detail => pure (.error (.notLoaded code detail))
  | .tokens name manager serviceInstance =>
    credentialsOfToken name serviceInstance <$> manager.get
  | .invalid name error => pure (.error (.invalidProvider name error))
  | .trustedProfile issuer serviceInstance =>
    credentialsOfToken trustedProfileName serviceInstance <$> issuer.issue
  | .scripted script => do
    Activity.await (← Activity.update fun world => world.askProvider script)
  | .chain current verbose links => askInOrder current verbose 0 [] (retrieveEach links)
  | .assumed expiry role assumer source => role.retrieve expiry assumer (retrieve source)
  | .cached cache inner => getCached cache (fun world => inner.isExpired world) (retrieve inner)

/-- The retrievals of several providers. -/
def retrieveEach : List Provider → List (Activity Retrieved)
  | [] => []
  | link :: rest => retrieve link :: retrieveEach rest

end

end Provider

namespace CachedProvider

/-- The credentials of the cache, retrieved when there are none to serve. -/
def get (cached : CachedProvider) : Activity Retrieved :=
  getCached cached.cache (fun world => cached.inner.isExpired world) cached.inner.retrieve

/-- Expires the credentials of the cache by hand. -/
def expire (cached : CachedProvider) (world : World) : World :=
  world.alterCache cached.cache CredentialsCache.expire

end CachedProvider

end CloudSession
