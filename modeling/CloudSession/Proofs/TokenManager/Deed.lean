import CloudSession.Proofs.Gate
import CloudSession.TokenManager
import Mathlib.Tactic.Common

/-!
# What one task does to a token manager

`TokenManager.Deed` lists the indivisible changes of a token manager, each with the condition under
which a task makes it. What other tasks do leaves the standing of a task at the gate and its calls
of the token source alone.
-/

namespace CloudSession

namespace IssueCall

/-- What can become of a call: one that is over stays as it is. -/
structure Becomes (call later : IssueCall) : Prop where
  caller : later.caller = call.caller
  began : later.began = call.began
  delay : later.delay = call.delay
  final : call.isUnderway = false → later = call

/-- A call may stay as it is. -/
theorem Becomes.refl (call : IssueCall) : call.Becomes call :=
  ⟨rfl, rfl, rfl, fun _ => rfl⟩

/-- What a call becomes in two steps it becomes. -/
theorem Becomes.trans {a b c : IssueCall} (hab : a.Becomes b) (hbc : b.Becomes c) : a.Becomes c where
  caller := hbc.caller.trans hab.caller
  began := hbc.began.trans hab.began
  delay := hbc.delay.trans hab.delay
  final h := by
    have hb := hab.final h
    subst hb
    exact hbc.final h

/-- A call that is concluded keeps its caller. -/
@[simp] theorem caller_concluded (call : IssueCall) (state : IssueState) :
    (call.concluded state).caller = call.caller := by
  unfold concluded
  split <;> rfl

/-- A call that is concluded keeps the time at which it began. -/
@[simp] theorem began_concluded (call : IssueCall) (state : IssueState) :
    (call.concluded state).began = call.began := by
  unfold concluded
  split <;> rfl

/-- A call that is concluded keeps its delay. -/
@[simp] theorem delay_concluded (call : IssueCall) (state : IssueState) :
    (call.concluded state).delay = call.delay := by
  unfold concluded
  split <;> rfl

/-- A call that is over is not concluded again. -/
theorem concluded_of_over {call : IssueCall} (h : call.isUnderway = false) (state : IssueState) :
    call.concluded state = call := by
  simp [concluded, h]

/-- A call may be concluded. -/
theorem becomes_concluded (call : IssueCall) (state : IssueState) :
    call.Becomes (call.concluded state) :=
  ⟨by simp, by simp, by simp, fun h => concluded_of_over h state⟩

/-- A call that yielded a token is over. -/
theorem over_of_token {call : IssueCall} {token : Token} (h : call.token? = some token) :
    call.isUnderway = false := by
  unfold token? at h
  unfold isUnderway
  cases hstate : call.state <;> simp_all

/-- A call that is under way has no token yet. -/
theorem token?_of_underway {call : IssueCall} (h : call.isUnderway = true) : call.token? = none := by
  cases htoken : call.token? with
  | none => rfl
  | some token => simp [over_of_token htoken] at h

/-- A call that is under way is concluded as it is said to be. -/
theorem state_concluded_of_underway {call : IssueCall} (h : call.isUnderway = true)
    (state : IssueState) : (call.concluded state).state = state := by
  simp [concluded, h]

/-- A call that is broken off gets no token by that. -/
theorem token?_concluded_brokenOff (call : IssueCall) :
    (call.concluded .brokenOff).token? = call.token? := by
  cases h : call.isUnderway with
  | false => rw [concluded_of_over h]
  | true =>
    rw [token?_of_underway h]
    simp [token?, state_concluded_of_underway h]

/-- A call that is concluded is over. -/
theorem over_concluded (call : IssueCall) {state : IssueState} (hstate : state ≠ .underway) :
    (call.concluded state).isUnderway = false := by
  cases h : call.isUnderway with
  | false => rw [concluded_of_over h, h]
  | true =>
    unfold isUnderway
    rw [state_concluded_of_underway h]
    cases state <;> simp_all

/-- How a call that began ends, which is awaited no longer than a limit, when its caller looks for the
answer after so much time: with the answer, if that takes no longer than the limit or is there by
then, and otherwise because it has taken too long. -/
inductive EndsWith (call : IssueCall) (limit elapsed : Span) : Except TokenError Token → Prop
  | answered (answer : Except TokenError Token) :
      (call.delay.nanos ≤ limit.nanos ∨
        call.began.nanos + call.delay.nanos ≤ elapsed.nanos) → EndsWith call limit elapsed answer
  | tooLate : limit.nanos < call.delay.nanos →
      elapsed.nanos < call.began.nanos + call.delay.nanos →
      EndsWith call limit elapsed (.error (.timeout limit))

end IssueCall

namespace TokenManager

variable {manager after : TokenManager} {me call : RefreshCall} {task : TaskId} {now : Instant}
  {elapsed : Span}

/-- Whoever leaves keeps the policy of the manager. -/
@[simp] theorem leave_policy : (manager.leave call).policy = manager.policy := rfl

/-- Whoever leaves breaks off a call of its own that is under way. -/
theorem leave_calls :
    (manager.leave call).calls = (manager.conclude call.task .brokenOff).calls := rfl

/-- The calls after a conclusion are those of before, with those of the caller concluded. -/
theorem mem_conclude_calls {state : IssueState} {later : IssueCall} :
    later ∈ (manager.conclude task state).calls ↔
      ∃ earlier ∈ manager.calls,
        (if earlier.caller.task = task then earlier.concluded state else earlier) = later := by
  simp [conclude]

/-- A task that does not await an answer has nothing to conclude. -/
theorem conclude_of_over {state : IssueState}
    (h : ∀ issue ∈ manager.calls, issue.caller.task = task → issue.isUnderway = false) :
    manager.conclude task state = manager := by
  have hmap : (manager.calls.map fun issue =>
      if issue.caller.task = task then issue.concluded state else issue) = manager.calls := by
    refine (List.map_congr_left ?_).trans (List.map_id manager.calls)
    intro issue hissue
    split
    · exact IssueCall.concluded_of_over (h issue hissue ‹_›) state
    · rfl
  simp only [conclude, hmap]

/-- Once a task has concluded, no answer is on its way to it. -/
theorem over_of_mem_conclude {state : IssueState} (hstate : state ≠ .underway)
    {issue : IssueCall} (hissue : issue ∈ (manager.conclude task state).calls)
    (htask : issue.caller.task = task) : issue.isUnderway = false := by
  obtain ⟨earlier, -, rfl⟩ := mem_conclude_calls.mp hissue
  by_cases h : earlier.caller.task = task
  · simpa [h] using IssueCall.over_concluded earlier hstate
  · simp [h] at htask

/-- A task that does not call at the gate. -/
def IsAway (manager : TokenManager) (task : TaskId) : Prop :=
  ∀ other ∈ manager.gate.callers, other.task ≠ task

/-- A task that breaks off leaves the gate if it is there, and changes nothing else. -/
theorem abandon_cases (manager : TokenManager) (task : TaskId) :
    manager.abandon task = manager ∧ manager.IsAway task ∨
      ∃ call ∈ manager.gate.callers, call.task = task ∧
        manager.abandon task = manager.leave call := by
  unfold abandon
  cases h : manager.gate.callers.find? (·.task = task) with
  | none =>
    left
    refine ⟨rfl, fun other hother => ?_⟩
    simpa using List.find?_eq_none.mp h other hother
  | some call =>
    right
    exact ⟨call, List.mem_of_find?_eq_some h, by simpa using List.find?_some h, rfl⟩

/-- Advice is noted only where none is. -/
theorem advisoryInFlight_of_advise (h : manager.advise = some after) :
    manager.advisoryInFlight = false := by
  unfold advise at h
  split at h
  · cases h
  · next hflag => simpa using hflag

/-- Advice that is taken is noted, and changes nothing else. -/
theorem eq_of_advise (h : manager.advise = some after) :
    after = { manager with advisoryInFlight := true } := by
  unfold advise at h
  split at h
  · cases h
  · exact (Option.some.inj h).symm

/-- Once a call is settled, there is nothing left to conclude. -/
theorem settle_calls (answer : Except TokenError Token) :
    (manager.settle me answer).calls = (manager.conclude me.task (.ended answer)).calls := by
  have hover : (manager.conclude me.task (.ended answer)).conclude me.task .brokenOff =
      manager.conclude me.task (.ended answer) :=
    conclude_of_over fun issue hissue htask => over_of_mem_conclude (by simp) hissue htask
  have hcalls := congrArg TokenManager.calls hover
  cases answer <;> exact hcalls

/-- Whoever settles a call leaves the gate. -/
theorem settle_gate (answer : Except TokenError Token) :
    (manager.settle me answer).gate = manager.gate.leave me := by
  cases answer <;> rfl

/-- A call that is settled with a token has the token cached. -/
@[simp] theorem settle_token_ok (token : Token) :
    (manager.settle me (.ok token)).token = some token := rfl

/-- A call that is settled with an error leaves the cached token alone. -/
@[simp] theorem settle_token_error (error : TokenError) :
    (manager.settle me (.error error)).token = manager.token := rfl

/-- A task that does not await an answer of the token source. -/
def AwaitsNone (manager : TokenManager) (task : TaskId) : Prop :=
  ∀ issue ∈ manager.calls, issue.caller.task = task → issue.isUnderway = false

/-- A token that is usable is the cached one. -/
theorem token_of_usable {purpose : Purpose} {token : Token}
    (h : manager.usable? purpose now = .ok (some token)) : manager.token = some token := by
  unfold usable? at h
  cases htoken : manager.token with
  | none => simp [htoken] at h
  | some cached =>
    cases hserves : serves manager.policy cached now purpose with
    | error fault => simp [htoken, hserves, bind, Except.bind] at h
    | ok served => cases served <;> simp_all [bind, Except.bind, pure, Except.pure]

/-- The indivisible changes that a task makes to a token manager. -/
inductive Deed (me : RefreshCall) (now : Instant) (elapsed : Span) : TokenManager → TokenManager → Prop
  /-- The manager is left alone. -/
  | rest (manager : TokenManager) : Deed me now elapsed manager manager
  /-- The task, which has not been at the gate, arrives. -/
  | arrive (manager : TokenManager) : manager.IsAway me.task →
      Deed me now elapsed manager (manager.arrive me)
  /-- The task is inside the gate, where the token does not serve its purpose, and asks. -/
  | ask (manager : TokenManager) (delay : Span) : manager.gate.holder = some me →
      manager.AwaitsNone me.task → manager.usable? me.purpose now = .ok none →
      Deed me now elapsed manager (manager.beginIssue me elapsed delay)
  /-- The call of the token source that the task has begun comes to its end. -/
  | settle (manager : TokenManager) (issue : IssueCall) (answer : Except TokenError Token) :
      manager.gate.holder = some me → issue ∈ manager.calls → issue.caller = me →
      issue.isUnderway = true → issue.EndsWith manager.policy.timeout elapsed answer →
      Deed me now elapsed manager (manager.settle me answer)
  /-- The task is inside the gate, where the token serves its purpose. -/
  | leave (manager : TokenManager) (token : Token) : manager.gate.holder = some me →
      manager.AwaitsNone me.task → manager.usable? me.purpose now = .ok (some token) →
      Deed me now elapsed manager (manager.leave me)
  /-- The task breaks off. -/
  | abandon (manager : TokenManager) : Deed me now elapsed manager (manager.abandon me.task)
  /-- A refresh is advised. -/
  | advise (manager after : TokenManager) : manager.advise = some after →
      Deed me now elapsed manager after
  /-- The advice is followed, or there is no task that could follow it. -/
  | adviceFollowed (manager : TokenManager) : Deed me now elapsed manager manager.adviceFollowed
  /-- Background refresh starts. -/
  | startBackground (manager : TokenManager) (task : TaskId) : manager.background = none →
      Deed me now elapsed manager (manager.startBackground task)
  /-- Background refresh is given up. -/
  | stopBackground (manager : TokenManager) : Deed me now elapsed manager manager.stopBackground

namespace Deed

/-- At the gate, a task only moves itself. -/
theorem move (deed : Deed me now elapsed manager after) :
    Gate.Move RefreshCall.task me.task manager.gate after.gate := by
  cases deed with
  | arrive hnew => exact .arrive _ me rfl hnew
  | settle issue answer _ _ _ _ _ => cases answer <;> exact .leave _ me rfl
  | leave token _ _ _ => exact .leave _ me rfl
  | abandon =>
    obtain ⟨heq, -⟩ | ⟨found, -, htask, heq⟩ := abandon_cases manager me.task
    · rw [heq]
      exact .stay _
    · rw [heq]
      exact .leave _ found htask
  | advise _ h =>
    rw [eq_of_advise h]
    exact .stay _
  | _ => exact .stay _

/-- The thresholds and the time limit stay. -/
theorem policy_eq (deed : Deed me now elapsed manager after) : after.policy = manager.policy := by
  cases deed with
  | settle issue answer _ _ _ _ _ => cases answer <;> rfl
  | abandon =>
    obtain ⟨heq, -⟩ | ⟨found, -, -, heq⟩ := abandon_cases manager me.task
    · rw [heq]
    · rw [heq, leave_policy]
  | advise _ h => rw [eq_of_advise h]
  | _ => rfl

/-- The calls of the token source and the token change together: a call begins, one breaks off, or
one is settled. -/
theorem effect_cases (deed : Deed me now elapsed manager after) :
    after.calls = manager.calls ∧ after.token = manager.token ∨
      (∃ delay, after.calls = manager.calls ++ [{ caller := me, began := elapsed, delay }] ∧
        after.token = manager.token ∧ manager.gate.holder = some me ∧
        manager.AwaitsNone me.task ∧ manager.usable? me.purpose now = .ok none) ∨
      after.calls = (manager.conclude me.task .brokenOff).calls ∧ after.token = manager.token ∨
      ∃ issue answer, after = manager.settle me answer ∧ manager.gate.holder = some me ∧
        issue ∈ manager.calls ∧ issue.caller = me ∧ issue.isUnderway = true ∧
        issue.EndsWith manager.policy.timeout elapsed answer := by
  cases deed with
  | ask delay hholder hnone husable => exact .inr (.inl ⟨delay, rfl, rfl, hholder, hnone, husable⟩)
  | settle issue answer hholder hissue hcaller hunderway hends =>
    exact .inr (.inr (.inr ⟨issue, answer, rfl, hholder, hissue, hcaller, hunderway, hends⟩))
  | leave token _ _ _ => exact .inr (.inr (.inl ⟨rfl, rfl⟩))
  | abandon =>
    obtain ⟨heq, -⟩ | ⟨found, -, htask, heq⟩ := abandon_cases manager me.task
    · exact .inl (by rw [heq]; exact ⟨rfl, rfl⟩)
    · exact .inr (.inr (.inl (by rw [heq, leave_calls, htask]; exact ⟨rfl, rfl⟩)))
  | advise _ h => exact .inl (by rw [eq_of_advise h]; exact ⟨rfl, rfl⟩)
  | _ => exact .inl ⟨rfl, rfl⟩

/-- The calls of the token source change only as the deed says. -/
theorem calls_cases (deed : Deed me now elapsed manager after) :
    after.calls = manager.calls ∨
      (∃ delay, after.calls = manager.calls ++ [{ caller := me, began := elapsed, delay }]) ∨
      ∃ state, state ≠ .underway ∧ after.calls = (manager.conclude me.task state).calls := by
  obtain ⟨h, -⟩ | ⟨delay, h, -⟩ | ⟨h, -⟩ | ⟨issue, answer, rfl, -⟩ := deed.effect_cases
  · exact .inl h
  · exact .inr (.inl ⟨delay, h⟩)
  · exact .inr (.inr ⟨.brokenOff, by simp, h⟩)
  · exact .inr (.inr ⟨.ended answer, by simp, settle_calls answer⟩)

/-- The calls of other tasks are left alone. -/
theorem getElem?_calls (deed : Deed me now elapsed manager after) {n : Nat} {issue : IssueCall}
    (hne : issue.caller.task ≠ me.task) (h : manager.calls[n]? = some issue) :
    after.calls[n]? = some issue := by
  obtain hcalls | ⟨delay, hcalls⟩ | ⟨state, -, hcalls⟩ := deed.calls_cases
  · rw [hcalls, h]
  · have hlt : n < manager.calls.length := (List.getElem?_eq_some_iff.mp h).1
    rw [hcalls, List.getElem?_append_left hlt, h]
  · simp [hcalls, conclude, h, hne]

/-- No calls of other tasks are brought up. -/
theorem mem_calls (deed : Deed me now elapsed manager after) {issue : IssueCall}
    (hne : issue.caller.task ≠ me.task) (h : issue ∈ after.calls) : issue ∈ manager.calls := by
  obtain hcalls | ⟨delay, hcalls⟩ | ⟨state, -, hcalls⟩ := deed.calls_cases
  · exact hcalls ▸ h
  · rcases List.mem_append.mp (hcalls ▸ h) with hold | hnew
    · exact hold
    · rw [List.mem_singleton.mp hnew] at hne
      exact absurd rfl hne
  · obtain ⟨earlier, hearlier, rfl⟩ := mem_conclude_calls.mp (hcalls ▸ h)
    by_cases htask : earlier.caller.task = me.task
    · simp [htask] at hne
    · simpa [htask] using hearlier

/-- A task that is away stays away, whatever another one does. -/
theorem isAway (deed : Deed me now elapsed manager after) (hne : task ≠ me.task)
    (h : manager.IsAway task) : after.IsAway task := by
  intro other hother heq
  exact h other (deed.move.callers_of (by rw [heq]; exact hne) hother) heq

/-- No other task begins a call on behalf of a task. -/
theorem awaitsNone (deed : Deed me now elapsed manager after) (hne : task ≠ me.task)
    (h : manager.AwaitsNone task) : after.AwaitsNone task := by
  intro issue hissue htask
  exact h issue (deed.mem_calls (by rwa [htask]) hissue) htask

end Deed

end TokenManager

end CloudSession
