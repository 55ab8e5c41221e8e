import CloudSession.Activity

/-!
# Refreshing tokens

The calls on a token manager as activities: `get` hands out the token and refreshes it first if it is
stale; where a refresh is only advised, a task of its own does it. Background refresh is a task that
waits and refreshes in turn until it is stopped, or until nobody uses the manager any more.
-/

namespace CloudSession.ManagerId

/-- Waits for an answer of the token source, but no longer than the policy allows. An answer that
comes at the last moment counts, and so does one that has come by the time the task has its turn. -/
def awaitToken (policy : RefreshPolicy) (answer : Underway (Except TokenError Token)) :
    Activity (Except TokenError Token) :=
  if answer.delay.nanos ≤ policy.timeout.nanos then
    Activity.await answer
  else do
    let began := (← Activity.world).elapsed
    Activity.pause policy.timeout
    if began.nanos + answer.delay.nanos ≤ (← Activity.world).elapsed.nanos then
      Activity.update answer.arrive
    else
      return .error (.timeout policy.timeout)

/-- Changes the manager and wakes the task that this lets through the gate. -/
def alterAndWake (id : ManagerId) (f : TokenManager → TokenManager) : Activity Unit := do
  let before := (← Activity.world).manager id
  let after := f before
  Activity.modify fun world => world.alterManager id fun _ => after
  if after.admitted? ≠ before.admitted? then
    Activity.notify after.admitted?

/-- Refreshes the token, once inside the gate. -/
def refreshInside (id : ManagerId) (call : RefreshCall) : Activity (Except TokenError Token) := do
  let policy := ((← Activity.world).manager id).policy
  let answer ← awaitToken policy (← Activity.update fun world => world.beginIssue id call)
  if answer.toOption.isNone then
    Activity.modify fun world => world.warn .refreshFailed
  id.alterAndWake fun manager => manager.settle call answer
  return answer

/-- Once inside the gate, takes the token if it serves the purpose as it is, and refreshes it
otherwise. -/
def takeOrRefresh (id : ManagerId) (call : RefreshCall) : Activity (Except TokenError Token) := do
  let world ← Activity.world
  match ← Activity.check ((world.manager id).usable? call.purpose world.now) with
  | some token =>
    id.alterAndWake (·.leave call)
    return .ok token
  | none => id.refreshInside call

/-- Passes the gate and refreshes the token, unless it serves the purpose as it is. -/
def refreshFor (id : ManagerId) (purpose : Purpose) : Activity (Except TokenError Token) := do
  let call : RefreshCall := { task := ← Activity.me, purpose }
  Activity.modify fun world => world.alterManager id (·.arrive call)
  if !((← Activity.world).manager id).admits call then
    Activity.wait
  id.takeOrRefresh call

/-- Starts a task that refreshes the token, unless one is noted to be under way. Where no task can be
started, the note is taken back. -/
def advise (id : ManagerId) : Activity Unit := do
  let world ← Activity.world
  match (world.manager id).advise with
  | none => return
  | some manager =>
    Activity.modify fun world => world.alterManager id fun _ => manager
    if world.canStartTasks then
      Activity.modify fun world => world.engage id
      let _ ← Activity.start (.advisory id)
    else
      Activity.modify fun world => world.alterManager id TokenManager.adviceFollowed

/-- The token, refreshed if need be. -/
def get (id : ManagerId) : Activity (Except TokenError Token) := do
  let now ← Activity.now
  let manager := (← Activity.world).manager id
  match ← Activity.check (manager.phase now), manager.token with
  | .fresh, some token => return .ok token
  | .advised, some token =>
    id.advise
    return .ok token
  | _, _ => id.refreshFor .avoidStale

/-- A new token. -/
def refresh (id : ManagerId) : Activity (Except TokenError Token) :=
  id.refreshFor .renew

/-- Whether the token has to be refreshed before it is handed out. -/
def isExpired (id : ManagerId) : Activity Bool := do
  let world ← Activity.world
  Activity.check ((world.manager id).isExpired world.now)

/-- Stops background refresh. -/
def stopBackground (id : ManagerId) : Activity Unit := do
  let task := ((← Activity.world).manager id).background
  Activity.modify fun world => world.alterManager id TokenManager.stopBackground
  Activity.stop task

/-- Starts background refresh, unless it is running. Where no task can be started, it only warns. -/
def startBackground (id : ManagerId) : Activity Unit := do
  let world ← Activity.world
  if (world.manager id).background.isNone then
    if world.canStartTasks then
      let task ← Activity.start (.background id)
      Activity.modify fun world => world.alterManager id (·.startBackground task)
    else
      Activity.modify fun world => world.warn .noRuntime

/-- Whether somebody uses the manager: its owner, a task that follows advice, or a refresh in the
background that is under way. -/
def isInUse (id : ManagerId) : Activity Bool := do
  let entry := (← Activity.world).managed id
  let refreshing :=
    match entry.manager.background with
    | some task => entry.manager.isCalledBy task
    | none => false
  return !entry.dropped || entry.followers ≠ 0 || refreshing

/-- Background refresh ends with the last use of the manager. -/
def stopUnlessInUse (id : ManagerId) : Activity Unit := do
  if !(← id.isInUse) then
    id.stopBackground

/-- The owner is done with the manager. -/
def drop (id : ManagerId) : Activity Unit := do
  Activity.modify fun world => world.drop id
  id.stopUnlessInUse

/-- A task that follows advice is done with the manager. -/
def disengage (id : ManagerId) : Activity Unit := do
  Activity.modify fun world => world.disengage id
  id.stopUnlessInUse

/-- A refresh that was advised. -/
def followAdvice (id : ManagerId) : Activity Unit := do
  let _ ← id.refreshFor .followAdvice
  Activity.modify fun world => world.alterManager id TokenManager.adviceFollowed
  id.disengage

/-- How long background refresh is to wait. -/
def backgroundWait (id : ManagerId) : Activity Span := do
  let world ← Activity.world
  Activity.check ((world.manager id).backgroundWait world.now)

/-- Waits until background refresh is due for the first time. -/
def awaitFirstRound (id : ManagerId) : Activity (Option Job) := do
  Activity.pause (← id.backgroundWait)
  return some (.round id)

/-- Waits until background refresh is due again. If that is at once, other tasks have their turn
first. -/
def awaitRound (id : ManagerId) : Activity (Option Job) := do
  let wait ← id.backgroundWait
  if wait = Span.zero then
    Activity.yield
  else
    Activity.pause wait
  return some (.round id)

/-- One refresh in the background and the wait for the next; there is none when nobody uses the
manager. -/
def backgroundRound (id : ManagerId) : Activity (Option Job) := do
  if !(← id.isInUse) then
    return none
  let _ ← id.refresh
  if !(← id.isInUse) then
    return none
  id.awaitRound

/-- A task that breaks off goes away from the gate. -/
def abandon (id : ManagerId) : Activity Unit := do
  let task ← Activity.me
  id.alterAndWake (·.abandon task)
  id.stopUnlessInUse

end CloudSession.ManagerId

namespace CloudSession.Job

/-- What a task does for a job, and the job with which it goes on. -/
def activity : Job → Activity (Option Job)
  | .advisory id => do
    id.followAdvice
    return none
  | .background id => id.awaitFirstRound
  | .round id => id.backgroundRound

/-- What is left to do when a task breaks off. -/
def cleanUp : Job → Activity Unit
  | .advisory id => do
    id.abandon
    id.disengage
  | .background id | .round id => id.abandon

end CloudSession.Job
