import CloudSession.Gate
import CloudSession.TokenManager.Policy
import CloudSession.Token.Error

/-!
# Token managers

A token manager keeps at most one token. Whoever wants to refresh it passes a gate first, so one
refresh runs at a time, and looks at the token again inside: another caller may have refreshed it in
the meantime. The functions below are the steps between which other tasks may run; each of them is
one indivisible change of the manager.
-/

namespace CloudSession

/-- What a caller at the gate wants. -/
inductive Purpose where
  /-- A new token in any case. -/
  | renew
  /-- A token that is not stale. -/
  | avoidStale
  /-- A token whose refresh is not advised. -/
  | followAdvice
  deriving DecidableEq, Repr

/-- A caller at the gate of a token manager. -/
structure RefreshCall where
  task : TaskId
  purpose : Purpose
  deriving DecidableEq, Repr

/-- How a call of the token source stands. -/
inductive IssueState where
  /-- The answer is not there yet. -/
  | underway
  /-- The answer came, or the time for it was up. -/
  | ended (answer : Except TokenError Token)
  /-- The caller went away before the answer came. -/
  | brokenOff

/-- A call of the token source. -/
structure IssueCall where
  caller : RefreshCall
  /-- How much time had passed when the call began. -/
  began : Span
  /-- How long the token source takes to answer. -/
  delay : Span
  state : IssueState := .underway

namespace IssueCall

/-- Whether the answer is still awaited. -/
def isUnderway (call : IssueCall) : Bool :=
  match call.state with
  | .underway => true
  | _ => false

/-- The token that the call yielded. -/
def token? (call : IssueCall) : Option Token :=
  match call.state with
  | .ended (.ok token) => some token
  | _ => none

/-- The call as it stands once its caller does not await the answer any more. -/
def concluded (call : IssueCall) (state : IssueState) : IssueCall :=
  if call.isUnderway then { call with state } else call

end IssueCall

/-- The token and who is refreshing it. -/
structure TokenManager where
  policy : RefreshPolicy := {}
  /-- The token of the last refresh that succeeded. -/
  token : Option Token := none
  gate : Gate RefreshCall := {}
  /-- The calls of the token source, in the order in which they began. -/
  calls : List IssueCall := []
  /-- Whether a refresh that was advised is under way. -/
  advisoryInFlight : Bool := false
  /-- The task that refreshes the token in the background. -/
  background : Option TaskId := none

namespace TokenManager

/-- How long background refresh waits at least while there is a token. -/
def minimumWait : Span := Span.ofSeconds 2

/-- The phase of the token; no token is like a stale one. -/
def phase (manager : TokenManager) (now : Instant) : Except Overflow Phase :=
  match manager.token with
  | none => .ok .stale
  | some token => manager.policy.phase token now

/-- Whether there is no token, or only one past its mandatory refresh time. -/
def isExpired (manager : TokenManager) (now : Instant) : Except Overflow Bool :=
  match manager.token with
  | none => .ok true
  | some token => do return !now.atOrBefore (← manager.policy.mandatoryTime token)

/-- Whether a token serves a purpose as it is. -/
def serves (policy : RefreshPolicy) (token : Token) (now : Instant) :
    Purpose → Except Overflow Bool
  | .renew => .ok false
  | .avoidStale => do return now.atOrBefore (← policy.mandatoryTime token)
  | .followAdvice => do return now.atOrBefore (← policy.advisoryTime token)

/-- The token, if it serves the purpose as it is. -/
def usable? (manager : TokenManager) (purpose : Purpose) (now : Instant) :
    Except Overflow (Option Token) :=
  match manager.token with
  | none => .ok none
  | some token => do
    return if ← serves manager.policy token now purpose then some token else none

/-- A caller arrives at the gate. -/
def arrive (manager : TokenManager) (call : RefreshCall) : TokenManager :=
  { manager with gate := manager.gate.arrive call }

/-- Whether a caller is inside the gate. -/
def admits (manager : TokenManager) (call : RefreshCall) : Bool :=
  manager.gate.holder = some call

/-- The caller inside the gate turns to the token source, which will take some time to answer. -/
def beginIssue (manager : TokenManager) (call : RefreshCall) (began delay : Span) : TokenManager :=
  { manager with calls := manager.calls ++ [{ caller := call, began, delay }] }

/-- A task does not await the answer of the token source any more. -/
def conclude (manager : TokenManager) (task : TaskId) (state : IssueState) : TokenManager :=
  { manager with
    calls := manager.calls.map fun call =>
      if call.caller.task = task then call.concluded state else call }

/-- A caller goes away from the gate; an answer that it may be waiting for will not reach it. -/
def leave (manager : TokenManager) (call : RefreshCall) : TokenManager :=
  { manager.conclude call.task .brokenOff with gate := manager.gate.leave call }

/-- A task breaks off, wherever it is at the gate. -/
def abandon (manager : TokenManager) (task : TaskId) : TokenManager :=
  match manager.gate.callers.find? (·.task = task) with
  | some call => manager.leave call
  | none => manager

/-- The caller inside the gate gets the answer of the token source and leaves. A failure keeps the
token. -/
def settle (manager : TokenManager) (call : RefreshCall) (answer : Except TokenError Token) :
    TokenManager :=
  let ended := manager.conclude call.task (.ended answer)
  let kept :=
    match answer with
    | .ok token => { ended with token := some token }
    | .error _ => ended
  kept.leave call

/-- A refresh that was advised is to start, unless one is under way. -/
def advise (manager : TokenManager) : Option TokenManager :=
  if manager.advisoryInFlight then none else some { manager with advisoryInFlight := true }

/-- The refresh that was advised is over. -/
def adviceFollowed (manager : TokenManager) : TokenManager :=
  { manager with advisoryInFlight := false }

/-- How long background refresh waits before it refreshes the token: until the advisory refresh time,
or not at all without a token. -/
def backgroundWait (manager : TokenManager) (now : Instant) : Except Overflow Span :=
  match manager.token with
  | none => .ok Span.zero
  | some token => do
    let wait := (← manager.policy.advisoryTime token).since now
    return if wait.nanos < minimumWait.nanos then minimumWait else wait

/-- Background refresh starts as `task`. -/
def startBackground (manager : TokenManager) (task : TaskId) : TokenManager :=
  { manager with background := some task }

/-- Background refresh is given up. -/
def stopBackground (manager : TokenManager) : TokenManager :=
  { manager with background := none }

/-- The task that is inside the gate. -/
def admitted? (manager : TokenManager) : Option TaskId :=
  manager.gate.holder.map RefreshCall.task

/-- Whether a task is inside the gate or waits for it. -/
def isCalledBy (manager : TokenManager) (task : TaskId) : Bool :=
  manager.gate.callers.any (·.task = task)

end TokenManager

end CloudSession
