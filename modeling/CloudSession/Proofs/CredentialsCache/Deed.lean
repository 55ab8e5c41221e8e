import CloudSession.CredentialsCache
import CloudSession.Proofs.Gate
import Mathlib.Tactic.Common

/-!
# What one task does to a credentials cache

`CredentialsCache.Deed` lists the indivisible changes of a cache, each with the condition under
which a task makes it. At the gate of the cache, a task only moves itself.
-/

namespace CloudSession.CredentialsCache

variable {cache after : CredentialsCache} {task : TaskId}

/-- A caller that decides what to do takes note of an expiry by hand and changes nothing else. -/
theorem eq_of_decide {expired : Except Overflow Bool} {decision : Decision}
    (h : cache.decide expired = .ok (after, decision)) : after = { cache with forced := false } := by
  unfold decide at h
  cases hcached : cache.cached with
  | none =>
    simp only [hcached, Except.ok.injEq, Prod.mk.injEq] at h
    exact h.1.symm
  | some credentials =>
    cases hforced : cache.forced <;> cases expired <;>
      simp [hcached, hforced, bind, Except.bind, pure, Except.pure] at h
    · exact h.1.symm
    · exact h.1.symm
    · exact h.1.symm

/-- A caller is served what is cached if the provider does not call it expired. -/
theorem served_of_decide {expired : Except Overflow Bool} {credentials : Credentials}
    (h : cache.decide expired = .ok (after, .serve credentials)) :
    cache.cached = some credentials ∧ cache.forced = false ∧ expired = .ok false := by
  unfold decide at h
  cases hcached : cache.cached with
  | none => simp [hcached] at h
  | some cached =>
    cases hforced : cache.forced with
    | true => simp [hcached, hforced] at h
    | false =>
      cases expired with
      | error fault => simp [hcached, hforced, bind, Except.bind] at h
      | ok past => cases past <;> simp_all [bind, Except.bind, pure, Except.pure]

/-- A caller retrieves on account of an expiry by hand only if one is in force. -/
theorem forced_of_decide {expired : Except Overflow Bool}
    (h : cache.decide expired = .ok (after, .retrieve true)) : cache.forced = true := by
  unfold decide at h
  cases hcached : cache.cached with
  | none =>
    simp only [hcached, Except.ok.injEq, Prod.mk.injEq, Decision.retrieve.injEq] at h
    exact h.2
  | some credentials =>
    cases hforced : cache.forced with
    | true => rfl
    | false =>
      cases expired with
      | error fault => simp [hcached, hforced, bind, Except.bind] at h
      | ok past => cases past <;> simp [hcached, hforced, bind, Except.bind, pure, Except.pure] at h

/-- A retrieval that is settled leaves the gate to whoever is there. -/
@[simp] theorem settle_gate (forced : Bool) (result : Retrieved) :
    (cache.settle forced result).gate = cache.gate := by
  cases result <;> cases forced <;> rfl

/-- The indivisible changes that a task makes to a cache. -/
inductive Deed (task : TaskId) : CredentialsCache → CredentialsCache → Prop
  /-- The cache is left alone. -/
  | rest (cache : CredentialsCache) : Deed task cache cache
  /-- The task, which has not been at the gate, arrives. -/
  | arrive (cache : CredentialsCache) : task ∉ cache.gate.callers →
      Deed task cache (cache.arrive task)
  /-- The task is inside the gate and decides what to do. -/
  | decide (cache after : CredentialsCache) (expired : Except Overflow Bool) (decision : Decision) :
      cache.gate.holder = some task → cache.decide expired = .ok (after, decision) →
      Deed task cache after
  /-- The task gets what it retrieved inside the gate. -/
  | settle (cache : CredentialsCache) (forced : Bool) (result : Retrieved) :
      cache.gate.holder = some task → Deed task cache ((cache.settle forced result).leave task)
  /-- The task goes away from the gate. -/
  | leave (cache : CredentialsCache) : Deed task cache (cache.leave task)
  /-- The credentials are expired by hand. -/
  | expire (cache : CredentialsCache) : Deed task cache cache.expire

/-- At the gate, a task only moves itself. -/
theorem Deed.move (deed : Deed task cache after) : Gate.Move id task cache.gate after.gate := by
  cases deed with
  | arrive hnew => exact .arrive _ task rfl fun other hother heq => hnew (heq ▸ hother)
  | decide _ expired decision _ h =>
    rw [eq_of_decide h]
    exact .stay _
  | settle forced result _ =>
    have hgate : ((cache.settle forced result).leave task).gate = cache.gate.leave task := by
      simp [CredentialsCache.leave]
    rw [hgate]
    exact .leave _ task rfl
  | leave => exact .leave _ task rfl
  | _ => exact .stay _

end CloudSession.CredentialsCache
