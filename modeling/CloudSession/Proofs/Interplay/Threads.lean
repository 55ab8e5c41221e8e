import CloudSession.Proofs.Interleaving.Run
import CloudSession.Proofs.Interplay.Freshness

/-!
# Callers on threads of their own

Where callers take turns, whoever is handed out a token looks at the clock and at the token at the same
moment. Callers that go on side by side do so in strides, and time may pass in between: what was
fresh by the time looked at may be stale when it is handed out.
-/

namespace CloudSession

/-- Whoever asks a manager for its token looks at the clock first and at the token afterwards. Between
these strides time may pass, and a token is handed out that is fresh by the time looked at. -/
theorem ManagerId.stride_get_of_fresh {id : ManagerId} {token : Token} (me : TaskId)
    (before after : World) (hcached : (after.manager id).token = some token)
    (hphase : (after.manager id).phase before.now = .ok .fresh) :
    ∃ rest, id.get.stride me before = (.waiting rest, before) ∧
      rest.stride me after = (.finished (.ok token), after) := by
  refine ⟨_, rfl, ?_⟩
  simp only [bind, Activity.bind, Activity.world, Activity.stride, hphase, hcached, Activity.check,
    pure]

/-- The world and callers that go on side by side. -/
structure Threads where
  world : World
  callers : List (Schedule.Caller Reply) := []

namespace Threads

/-- What happens next. -/
inductive Event where
  | call (task : TaskId) (operation : Operation)
  | stride (task : TaskId)
  | elapse (elapsed : Span)

/-- What comes of an event, if it can happen. A caller that waits at a gate does not go on before it is
let in. -/
def happen (now : Threads) : Event → Option Threads
  | .call task operation =>
    if now.callers.any (·.task = task) then none
    else some { now with callers := now.callers ++ [⟨task, .waiting operation.activity⟩] }
  | .stride task =>
    match now.callers.find? (·.task = task) with
    | some { state := .waiting rest, .. } =>
      if now.world.IsWaiting task then none
      else
        let (state, world) := rest.stride task now.world
        some {
          world
          callers := now.callers.map fun caller =>
            if caller.task = task then { caller with state } else caller }
    | _ => none
  | .elapse elapsed =>
    if now.world.elapsed.nanos ≤ elapsed.nanos then
      some { now with world := { now.world with elapsed } }
    else none

/-- The moments of a run in which events happen one after another, if they can. -/
def run (now : Threads) : List Event → Option (List Threads)
  | [] => some [now]
  | event :: rest => do
    let next ← now.happen event
    return now :: (← next.run rest)

/-- The moments of some run from an untouched world. -/
def IsRun (moments : List Threads) : Prop :=
  ∃ (world : World) (events : List Event), world.Untouched ∧
    ({ world } : Threads).run events = some moments

/-- What is current about a token that a caller has got: it comes from a call of the token source that
the caller began itself, or was cached and not past its mandatory refresh time while the caller was
there. -/
def IsCurrent (moments : List Threads) (task : TaskId) (id : ManagerId) (token : Token) : Prop :=
  ∃ moment ∈ moments, (∃ caller ∈ moment.callers, caller.task = task) ∧
    ((∃ issue ∈ (moment.world.manager id).calls,
        issue.caller.task = task ∧ issue.token? = some token) ∨
      (moment.world.manager id).token = some token ∧
        moment.world.now.IsWithin ((moment.world.manager id).policy.mandatoryTime token))

/-- A token is not current if, at all moments, the manager counts as expired and no call of the token
source is that of the caller. -/
theorem not_isCurrent {moments : List Threads} {task : TaskId} {id : ManagerId} {token : Token}
    (h : ∀ moment ∈ moments,
      ((moment.world.manager id).isExpired moment.world.now).toOption ≠ some false ∧
        ∀ issue ∈ (moment.world.manager id).calls, issue.caller.task ≠ task) :
    ¬IsCurrent moments task id token := by
  rintro ⟨moment, hmoment, -, ⟨issue, hissue, htask, -⟩ | ⟨hcached, hwithin⟩⟩
  · exact (h moment hmoment).2 issue hissue htask
  · have hexpired := TokenManager.isExpired_eq_false_iff.mpr ⟨token, hcached, hwithin⟩
    exact (h moment hmoment).1 (by rw [hexpired]; rfl)

/-- A caller refreshes the token of a manager, and another asks for credentials behind a cache. That
one has looked at the clock when a minute and a half passes, after which the first caches a token that
lives for a hundred seconds from when it was asked for. -/
def overtaken : List Threads :=
  let issued : IssuerAnswer := { token := fun now => .ok (.issued "overtaken" "" "" 100 now) }
  let events : List Event :=
    [.call 1 (.refreshToken 0), .stride 1, .stride 1, .stride 1,
      .call 2 (.getCredentials ⟨0, .tokens "provider" 0 none⟩), .stride 2, .stride 2, .stride 2,
      .elapse (.ofSeconds 90), .stride 1, .stride 1, .stride 2, .stride 2]
  (run { world := .solo {} [issued] } events).get (by decide +kernel)

/-- Then the credentials carry that token, though it was stale when it was cached and the caller has
not had it issued. -/
theorem overtaken_not_isCurrent :
    IsRun overtaken ∧ (∃ moment ∈ overtaken, ∃ caller ∈ moment.callers, caller.task = 2 ∧
      caller.state = .finished (.credentials
        (.ok (.ofToken (.issued "overtaken" "" "" 100 .epoch) none "provider")))) ∧
      ¬IsCurrent overtaken 2 0 (.issued "overtaken" "" "" 100 .epoch) := by
  refine ⟨?_, ?_, ?_⟩
  · unfold overtaken
    exact ⟨_, _, World.untouched_solo _ _, (Option.some_get _).symm⟩
  · obtain ⟨moment, hlast, caller, hcaller, htask, hstate⟩ :
        ∃ moment, overtaken.getLast? = some moment ∧ ∃ caller, moment.callers.getLast? = some caller ∧
          caller.task = 2 ∧ caller.state = .finished (.credentials
            (.ok (.ofToken (.issued "overtaken" "" "" 100 .epoch) none "provider"))) :=
      ⟨_, rfl, _, rfl, rfl, rfl⟩
    exact ⟨moment, List.mem_of_getLast? hlast, caller, List.mem_of_getLast? hcaller, htask, hstate⟩
  · exact not_isCurrent (by decide +kernel)

end Threads

end CloudSession
