import CloudSession.Proofs.TokenManager.Deed

/-!
# What holds of a token manager at all times

A token manager that only undergoes deeds stays `Coherent`: an answer of the token source is awaited
only by the caller inside the gate and only for the last call that began, and the cached token is
the one of the last call that yielded a token. The calls form a history: they are never
forgotten, and one that is over never changes.
-/

namespace CloudSession.TokenManager

variable {manager after later : TokenManager} {me : RefreshCall} {now : Instant}
  {elapsed : Span}

/-- The token of the last call that yielded one. -/
def lastIssued (manager : TokenManager) : Option Token :=
  (manager.calls.filterMap IssueCall.token?).getLast?

/-- What the gate, the calls of the token source and the token have to do with one another. -/
structure Coherent (manager : TokenManager) : Prop where
  distinct : (manager.gate.callers.map RefreshCall.task).Nodup
  last : ∀ issue ∈ manager.calls.dropLast, issue.isUnderway = false
  holds : ∀ issue ∈ manager.calls, issue.isUnderway = true → manager.gate.holder = some issue.caller
  token : manager.token = manager.lastIssued

/-- A manager that nobody has used yet is coherent. -/
theorem coherent_of_unused {policy : RefreshPolicy} : Coherent { policy := policy } where
  distinct := List.nodup_nil
  last := by simp
  holds := by simp
  token := rfl

/-- Nobody awaits an answer while the caller inside the gate does not. -/
theorem Coherent.all_over (coherent : manager.Coherent) (hholder : manager.gate.holder = some me)
    (hnone : manager.AwaitsNone me.task) {issue : IssueCall} (hissue : issue ∈ manager.calls) :
    issue.isUnderway = false := by
  by_contra h
  have hcaller := coherent.holds issue hissue (by simpa using h)
  rw [hholder] at hcaller
  have htask : issue.caller.task = me.task := by rw [← Option.some.inj hcaller]
  exact h (hnone issue hissue htask)

/-- A task that is not at the gate awaits no answer. -/
theorem Coherent.awaitsNone (coherent : manager.Coherent) {task : TaskId}
    (haway : manager.IsAway task) : manager.AwaitsNone task := by
  intro issue hissue htask
  by_contra h
  have hholder := coherent.holds issue hissue (by simpa using h)
  exact haway issue.caller (Gate.mem_callers.mpr (.inl hholder)) htask

/-- A caller that leaves is away from the gate. -/
theorem Coherent.isAway_of_leave (coherent : manager.Coherent) {call : RefreshCall}
    (hcall : call ∈ manager.gate.callers) (hgate : after.gate = manager.gate.leave call) :
    after.IsAway call.task := by
  intro other hother htask
  rw [hgate] at hother
  have hbefore : other ∈ manager.gate.callers := (Gate.leave_callers_sublist _ _).subset hother
  have heq : other = call := List.inj_on_of_nodup_map coherent.distinct hbefore hcall htask
  exact Gate.not_mem_leave_callers (List.Nodup.of_map _ coherent.distinct) (heq ▸ hother)

/-- A task that breaks off is away from the gate. -/
theorem Coherent.isAway_abandon (coherent : manager.Coherent) (task : TaskId) :
    (manager.abandon task).IsAway task := by
  obtain ⟨heq, haway⟩ | ⟨call, hcall, rfl, heq⟩ := abandon_cases manager task
  · rwa [heq]
  · rw [heq]
    exact coherent.isAway_of_leave hcall rfl

/-- The call that is underway is the last one. -/
theorem Coherent.length_of_underway (coherent : manager.Coherent) {n : Nat} {issue : IssueCall}
    (hissue : manager.calls[n]? = some issue) (hunderway : issue.isUnderway = true) :
    manager.calls.length = n + 1 := by
  have hlt : n < manager.calls.length := (List.getElem?_eq_some_iff.mp hissue).1
  by_contra hne
  have hdropped : manager.calls.dropLast[n]? = some issue := by
    rw [List.getElem?_dropLast, if_pos (by omega), hissue]
  rw [coherent.last issue (List.mem_of_getElem? hdropped)] at hunderway
  cases hunderway

/-- The calls before the one that is underway are over. -/
theorem Coherent.calls_eq_of_underway (coherent : manager.Coherent) {issue : IssueCall}
    (hissue : issue ∈ manager.calls) (hunderway : issue.isUnderway = true) :
    ∃ earlier, manager.calls = earlier ++ [issue] ∧ ∀ other ∈ earlier, other.isUnderway = false := by
  obtain ⟨n, hn⟩ := List.mem_iff_getElem?.mp hissue
  have hlast : manager.calls.getLast? = some issue := by
    rw [List.getLast?_eq_getElem?, coherent.length_of_underway hn hunderway, Nat.add_sub_cancel, hn]
  exact ⟨manager.calls.dropLast, (List.dropLast_append_getLast? issue hlast).symm, coherent.last⟩

/-- A task that goes away from the gate awaits no answer any more. -/
theorem Deed.awaitsNone_or_holder_kept (deed : Deed me now elapsed manager after) :
    after.AwaitsNone me.task ∨
      ∀ call, manager.gate.holder = some call → after.gate.holder = some call := by
  cases deed with
  | settle issue answer _ _ _ _ _ =>
    left
    intro other hother htask
    rw [settle_calls] at hother
    exact over_of_mem_conclude (by simp) hother htask
  | leave token _ _ _ =>
    exact .inl fun other hother htask => over_of_mem_conclude (by simp) hother htask
  | abandon =>
    obtain ⟨heq, -⟩ | ⟨found, -, hfound, heq⟩ := abandon_cases manager me.task
    · exact .inr fun call hcall => by rw [heq, hcall]
    · left
      intro other hother htask
      rw [heq, leave_calls, hfound] at hother
      exact over_of_mem_conclude (by simp) hother htask
  | arrive _ => exact .inr fun call hcall => by simp [TokenManager.arrive, Gate.arrive, hcall]
  | advise _ h => exact .inr fun call hcall => by rw [eq_of_advise h]; exact hcall
  | _ => exact .inr fun call hcall => hcall

/-- A caller that still awaits its answer stays inside the gate. -/
private theorem Deed.holder_of_awaits (deed : Deed me now elapsed manager after) {issue : IssueCall}
    (hissue : issue ∈ after.calls) (hunderway : issue.isUnderway = true)
    (hholder : manager.gate.holder = some issue.caller) :
    after.gate.holder = some issue.caller := by
  rcases deed.awaitsNone_or_holder_kept with hnone | hkept
  · by_cases htask : issue.caller.task = me.task
    · rw [hnone issue hissue htask] at hunderway
      cases hunderway
    · exact deed.move.holder_kept htask hholder
  · exact hkept _ hholder

/-- An answer that is still awaited after a task has concluded was awaited before. -/
private theorem mem_of_underway_of_conclude {task : TaskId} {state : IssueState}
    (hstate : state ≠ .underway) {issue : IssueCall}
    (hissue : issue ∈ (manager.conclude task state).calls) (hunderway : issue.isUnderway = true) :
    issue ∈ manager.calls ∧ issue.caller.task ≠ task := by
  have hne : issue.caller.task ≠ task := fun htask => by
    rw [over_of_mem_conclude hstate hissue htask] at hunderway
    cases hunderway
  obtain ⟨earlier, hearlier, rfl⟩ := mem_conclude_calls.mp hissue
  by_cases htask : earlier.caller.task = task
  · simp [htask] at hne
  · rw [if_neg htask] at hne ⊢
    exact ⟨hearlier, hne⟩

/-- The token that is cached after a call was settled is the last that was issued. -/
theorem Coherent.token_settle (coherent : manager.Coherent) {issue : IssueCall}
    (hissue : issue ∈ manager.calls) (hcaller : issue.caller = me)
    (hunderway : issue.isUnderway = true) (answer : Except TokenError Token) :
    (manager.settle me answer).token = (manager.settle me answer).lastIssued := by
  obtain ⟨earlier, hcalls, hover⟩ := coherent.calls_eq_of_underway hissue hunderway
  have hearlier : (earlier.map fun other =>
      if other.caller.task = me.task then other.concluded (.ended answer) else other) = earlier := by
    refine (List.map_congr_left ?_).trans (List.map_id earlier)
    intro other hother
    split
    · exact IssueCall.concluded_of_over (hover other hother) _
    · rfl
  have hsettled : (manager.settle me answer).calls =
      earlier ++ [issue.concluded (.ended answer)] := by
    rw [settle_calls]
    simp only [conclude, hcalls, List.map_append, List.map_cons, List.map_nil, hcaller, if_pos,
      hearlier]
  have hstate := IssueCall.state_concluded_of_underway hunderway (.ended answer)
  cases answer with
  | ok token =>
    rw [settle_token_ok, lastIssued, hsettled]
    simp [IssueCall.token?, hstate]
  | error error =>
    have hbefore := IssueCall.token?_of_underway hunderway
    have hafter : (issue.concluded (.ended (.error error))).token? = none := by
      simp [IssueCall.token?, hstate]
    rw [settle_token_error, coherent.token, lastIssued, lastIssued, hsettled, hcalls]
    simp [hbefore, hafter]

/-- A deed keeps the answers that are awaited with the caller inside the gate. -/
private theorem Deed.holds (deed : Deed me now elapsed manager after) (coherent : manager.Coherent)
    {later : IssueCall} (hlater : later ∈ after.calls) (hunderway : later.isUnderway = true) :
    after.gate.holder = some later.caller := by
  obtain ⟨hcalls, -⟩ | ⟨delay, hcalls, -, hholder, -⟩ | ⟨hcalls, -⟩ | ⟨issue, answer, rfl, -⟩ :=
    deed.effect_cases
  · exact deed.holder_of_awaits hlater hunderway
      (coherent.holds later (hcalls ▸ hlater) hunderway)
  · rcases List.mem_append.mp (hcalls ▸ hlater) with hold | hnew
    · exact deed.holder_of_awaits hlater hunderway (coherent.holds later hold hunderway)
    · exact deed.holder_of_awaits hlater hunderway (by rw [List.mem_singleton.mp hnew, hholder])
  · obtain ⟨hold, -⟩ := mem_of_underway_of_conclude (by simp) (hcalls ▸ hlater) hunderway
    exact deed.holder_of_awaits hlater hunderway (coherent.holds later hold hunderway)
  · obtain ⟨hold, -⟩ :=
      mem_of_underway_of_conclude (by simp) (settle_calls answer ▸ hlater) hunderway
    exact deed.holder_of_awaits hlater hunderway (coherent.holds later hold hunderway)

/-- A deed keeps all calls but the last over. -/
private theorem Deed.last (deed : Deed me now elapsed manager after) (coherent : manager.Coherent) :
    ∀ issue ∈ after.calls.dropLast, issue.isUnderway = false := by
  have hconclude (state : IssueState)
      (hcalls : after.calls = (manager.conclude me.task state).calls) :
      ∀ issue ∈ after.calls.dropLast, issue.isUnderway = false := by
    intro later hlater
    rw [hcalls] at hlater
    simp only [conclude, ← List.map_dropLast] at hlater
    obtain ⟨issue, hissue, rfl⟩ := List.mem_map.mp hlater
    have hover := coherent.last issue hissue
    split
    · rw [IssueCall.concluded_of_over hover, hover]
    · exact hover
  obtain ⟨hcalls, -⟩ | ⟨delay, hcalls, -, hholder, hnone, -⟩ | ⟨hcalls, -⟩ |
      ⟨issue, answer, rfl, -⟩ := deed.effect_cases
  · exact hcalls ▸ coherent.last
  · intro other hother
    rw [hcalls, List.dropLast_concat] at hother
    exact coherent.all_over hholder hnone hother
  · exact hconclude .brokenOff hcalls
  · exact hconclude (.ended answer) (settle_calls answer)

/-- A deed keeps the cached token the last that was issued. -/
private theorem Deed.token (deed : Deed me now elapsed manager after) (coherent : manager.Coherent) :
    after.token = after.lastIssued := by
  obtain ⟨hcalls, htoken⟩ | ⟨delay, hcalls, htoken, -⟩ | ⟨hcalls, htoken⟩ |
      ⟨issue, answer, rfl, -, hissue, hcaller, hunderway, -⟩ := deed.effect_cases
  · rw [htoken, coherent.token, lastIssued, lastIssued, hcalls]
  · rw [htoken, coherent.token]
    simp [lastIssued, hcalls, IssueCall.token?]
  · rw [htoken, coherent.token, lastIssued, lastIssued, hcalls]
    simp only [conclude, List.filterMap_map]
    congr 2
    funext issue
    simp only [Function.comp_apply]
    split
    · exact (IssueCall.token?_concluded_brokenOff issue).symm
    · rfl
  · exact coherent.token_settle hissue hcaller hunderway answer

/-- Every deed keeps a coherent manager coherent. -/
theorem Deed.coherent (deed : Deed me now elapsed manager after) (coherent : manager.Coherent) :
    after.Coherent where
  distinct := deed.move.nodup coherent.distinct
  last := deed.last coherent
  holds _ hlater hunderway := deed.holds coherent hlater hunderway
  token := deed.token coherent

/-- The calls of one manager are those of an earlier one, and what has become of them since. -/
def Precedes (manager later : TokenManager) : Prop :=
  ∀ (n : Nat) (issue : IssueCall), manager.calls[n]? = some issue →
    ∃ after, later.calls[n]? = some after ∧ issue.Becomes after

/-- A manager precedes itself. -/
theorem Precedes.refl (manager : TokenManager) : manager.Precedes manager :=
  fun _ issue h => ⟨issue, h, .refl issue⟩

/-- What precedes a manager precedes those that it precedes. -/
theorem Precedes.trans (hafter : manager.Precedes after) (hlater : after.Precedes later) :
    manager.Precedes later := by
  intro n issue h
  obtain ⟨next, hnext, hbecomes⟩ := hafter n issue h
  obtain ⟨last, hlast, hagain⟩ := hlater n next hnext
  exact ⟨last, hlast, hbecomes.trans hagain⟩

/-- No call is ever forgotten. -/
theorem Precedes.length_le (h : manager.Precedes later) :
    manager.calls.length ≤ later.calls.length := by
  by_contra hlt
  have hlt' : later.calls.length < manager.calls.length := Nat.lt_of_not_le hlt
  obtain ⟨after, hafter, -⟩ := h _ _ (List.getElem?_eq_getElem hlt')
  simp at hafter

/-- No deed forgets a call of the token source or changes one that is over. -/
theorem Deed.precedes (deed : Deed me now elapsed manager after) : manager.Precedes after := by
  intro n issue h
  obtain hcalls | ⟨delay, hcalls⟩ | ⟨state, -, hcalls⟩ := deed.calls_cases
  · exact ⟨issue, hcalls ▸ h, .refl issue⟩
  · have hlt : n < manager.calls.length := (List.getElem?_eq_some_iff.mp h).1
    exact ⟨issue, by rw [hcalls, List.getElem?_append_left hlt, h], .refl issue⟩
  · refine ⟨if issue.caller.task = me.task then issue.concluded state else issue,
      by simp [hcalls, conclude, h], ?_⟩
    split
    · exact IssueCall.becomes_concluded issue state
    · exact .refl issue

end CloudSession.TokenManager
