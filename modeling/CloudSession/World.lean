import CloudSession.Certificate.Encoding
import CloudSession.CredentialsCache
import CloudSession.Http.Script
import CloudSession.Iam.Issuer
import CloudSession.Profile.Load
import CloudSession.Role
import CloudSession.TokenManager
import CloudSession.Warning

/-!
# The world

Everything that tasks share: the clock, the environment and the files, the parties outside with what
they are going to answer, and the managers, caches and notes that the tasks themselves keep. What
libraries make of URIs, documents, certificates and headers is part of it, and so is what is left to
chance; only where nothing else is said do they go by readers of their own.
-/

namespace CloudSession

/-- The name of a token manager. -/
abbrev ManagerId := Nat

/-- The answer of a token source of the caller: how long it takes, and what it is, given when it was
asked for. -/
structure IssuerAnswer where
  delay : Span := Span.zero
  token : Instant → Except TokenError Token

/-- A token source of the caller: the answers that are left and how often it was asked. -/
structure IssuerScript where
  answers : List IssuerAnswer := []
  calls : Nat := 0

/-- Where a token manager gets its tokens. -/
inductive Issuer where
  /-- There is no token source. -/
  | absent
  /-- An exchanger of API keys. -/
  | apiKey (issuer : Iam.ApiKeyIssuer)
  /-- A token source of the caller. -/
  | scripted (script : Nat)

/-- A token manager in use. -/
structure Managed where
  manager : TokenManager
  issuer : Issuer
  /-- Whether its owner is done with it. -/
  dropped : Bool := false
  /-- How many tasks that follow advice use it. -/
  followers : Nat := 0

/-- A provider of the caller: the answers that are left, how long each takes, and whether it calls
its credentials expired. -/
structure ProviderScript where
  answers : List (Span × Retrieved) := []
  expired : Bool := false

/-- What libraries make of texts and bytes. -/
structure Libraries where
  readUri : Iam.UriReader := Uri.parse
  readDocument : Iam.DocumentReader := Iam.Document.parse?
  /-- Whether a text can be the value of a header. -/
  isHeaderValue : String → Bool := Http.isHeaderValue
  tls : TlsLibrary := {}

/-- Everything that tasks share. -/
structure World where
  environment : Environment := {}
  files : FileStore := {}
  /-- In which orders the sections of files are gone through, which is up to chance. -/
  orders : Profile.Orders := {}
  libraries : Libraries := {}
  /-- Whether tasks can be started from where the task is that has its turn. -/
  canStartTasks : Bool := true
  /-- The time that has passed. -/
  elapsed : Span := Span.zero
  /-- What the clock on the wall showed when no time had passed. -/
  origin : Instant := Instant.epoch
  http : Http.Script := {}
  issuers : List IssuerScript := []
  managers : List Managed := []
  caches : List CredentialsCache := []
  /-- For each chain, which of its providers made its last credentials. -/
  chains : List (Option Nat) := []
  /-- For each role, when its last credentials expire. -/
  roles : List (Option Instant) := []
  /-- What the second factor of a role gives when it is asked: what the role says, as long as nobody
  outside has it otherwise. -/
  secondFactor : Role → Except MfaError String := Role.mfa
  /-- For each assumer of roles, the answers that are left. -/
  assumers : List (List (Except String Credentials)) := []
  /-- What assumers were asked for, and with which credentials, oldest first. -/
  roleRequests : List (Credentials × RoleRequest) := []
  providers : List ProviderScript := []
  /-- The warnings so far, each once. -/
  warnings : List Warning := []

namespace World

/-- What the clock on the wall shows. -/
def now (world : World) : Instant :=
  world.origin.plus world.elapsed

/-- Sets the clock on the wall. -/
def setClock (world : World) (time : Instant) : World :=
  { world with origin := ⟨time.nanos - world.elapsed.nanos⟩ }

/-- Notes a warning. -/
def warn (world : World) (warning : Warning) : World :=
  if world.warnings.contains warning then world
  else { world with warnings := world.warnings ++ [warning] }

/-- Notes the warnings of a computation. -/
def warnAll (world : World) (warnings : List Warning) : World :=
  warnings.foldl warn world

/-- Changes one token manager. -/
def alterManager (world : World) (id : ManagerId) (f : TokenManager → TokenManager) : World :=
  { world with
    managers := world.managers.modify id fun entry => { entry with manager := f entry.manager } }

/-- The owner of a token manager is done with it. -/
def drop (world : World) (id : ManagerId) : World :=
  { world with managers := world.managers.modify id fun entry => { entry with dropped := true } }

/-- One more task that follows advice uses a token manager. -/
def engage (world : World) (id : ManagerId) : World :=
  { world with
    managers := world.managers.modify id fun entry =>
      { entry with followers := entry.followers + 1 } }

/-- A task that follows advice is done with a token manager. -/
def disengage (world : World) (id : ManagerId) : World :=
  { world with
    managers := world.managers.modify id fun entry =>
      { entry with followers := entry.followers - 1 } }

/-- Changes one cache. -/
def alterCache (world : World) (id : Nat) (f : CredentialsCache → CredentialsCache) : World :=
  { world with caches := world.caches.modify id f }

/-- A token manager. -/
def managed (world : World) (id : ManagerId) : Managed :=
  world.managers.getD id { manager := {}, issuer := .absent }

/-- The state of a token manager. -/
def manager (world : World) (id : ManagerId) : TokenManager :=
  (world.managed id).manager

/-- The state of a cache. -/
def cache (world : World) (id : Nat) : CredentialsCache :=
  world.caches.getD id {}

/-- A task that is dropped lets go of what it holds: it goes away from every gate. -/
def release (world : World) (task : TaskId) : World :=
  { world with
    managers := world.managers.map fun entry =>
      { entry with manager := entry.manager.abandon task }
    caches := world.caches.map (·.leave task) }

/-- Who is inside each gate. -/
def insiders (world : World) : List (Option TaskId) :=
  world.managers.map (·.manager.admitted?) ++ world.caches.map (·.gate.holder)

end World

/-- An answer that is on its way: how long it takes, and what happens when it arrives. -/
structure Underway (α : Type) where
  delay : Span
  arrive : World → World × α

/-- An answer that is there already. -/
def Underway.ready {α : Type} (value : α) : Underway α where
  delay := Span.zero
  arrive world := (world, value)

namespace World

/-- Sends a request for a token. What comes back is read when it arrives. -/
def exchange (world : World) (request : Except TokenError Http.Request) :
    World × Underway (Except TokenError Token) :=
  match request with
  | .error error => (world, .ready (.error error))
  | .ok request =>
    let requestedAt := world.now
    let (http, delay) := world.http.depart
    let arrive (later : World) : World × Except TokenError Token :=
      let (http, outcome) := later.http.arrive request
      ({ later with http },
       match outcome with
       | .error detail => .error (.dispatch detail)
       | .ok response => Iam.tokenOfResponse world.libraries.readDocument requestedAt response)
    ({ world with http }, { delay, arrive })

/-- Asks a token source of the caller. -/
def askScript (world : World) (id : Nat) : World × Underway (Except TokenError Token) :=
  let script := world.issuers.getD id {}
  let (rest, answer) : List IssuerAnswer × IssuerAnswer :=
    match script.answers with
    | [] => ([], { token := fun _ => .error (.issuer "script exhausted") })
    | answer :: rest => (rest, answer)
  let token := answer.token world.now
  ({ world with issuers := world.issuers.set id { answers := rest, calls := script.calls + 1 } },
   { delay := answer.delay, arrive := fun later => (later, token) })

/-- Asks the token source of a manager for a token. -/
def issue (world : World) : Issuer → World × Underway (Except TokenError Token)
  | .absent => (world, .ready (.error (.issuer "no token issuer configured")))
  | .apiKey issuer => world.exchange (issuer.request world.libraries.readUri)
  | .scripted id => world.askScript id

/-- The caller inside the gate of a manager asks its token source. -/
def beginIssue (world : World) (id : ManagerId) (call : RefreshCall) :
    World × Underway (Except TokenError Token) :=
  let (asked, answer) := world.issue (world.managed id).issuer
  (asked.alterManager id (·.beginIssue call world.elapsed answer.delay), answer)

end World

end CloudSession
