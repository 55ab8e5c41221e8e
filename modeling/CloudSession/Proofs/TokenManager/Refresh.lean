import CloudSession.Proofs.Activity.Visit
import CloudSession.TokenManager.Refresh

/-!
# What the calls on a token manager do

Each call on a token manager behaves, and its answer says where it comes from: the token source gave
it to a call that the task began itself (`Answered`), the task has found a token inside the gate
(`Found`), or a token was cached when the task looked and not past a refresh time that matters
(`Offered`).
-/

namespace CloudSession

/-- An answer that the token source has given to a call that a task began after `start`, the last
call that began until then. -/
def Answered (start : World) (id : ManagerId) (me : RefreshCall) (answer : Except TokenError Token)
    (seen : List World) : Prop :=
  ∃ world ∈ seen, ∃ n issue, (start.manager id).calls.length ≤ n ∧
    (world.manager id).calls.length = n + 1 ∧ (world.manager id).calls[n]? = some issue ∧
      issue.caller = me ∧ issue.state = .ended answer

/-- A token that has served the purpose of a task when the task was inside the gate. -/
def Found (id : ManagerId) (me : RefreshCall) (token : Token) (seen : List World) : Prop :=
  ∃ world ∈ seen, (world.manager id).gate.holder = some me ∧ (world.manager id).token = some token ∧
    (world.manager id).usable? me.purpose world.now = .ok (some token)

/-- A token that is cached and handed out at once. -/
def Offered (world : World) (id : ManagerId) (token : Token) : Prop :=
  (world.manager id).token = some token ∧
    ∃ phase, (world.manager id).phase world.now = .ok phase ∧ phase ≠ .stale

/-- An answer stays one when more worlds have been seen. -/
theorem Answered.mono {start : World} {id : ManagerId} {me : RefreshCall}
    {answer : Except TokenError Token} {seen later : List World}
    (answered : Answered start id me answer seen) (h : seen ⊆ later) :
    Answered start id me answer later := by
  obtain ⟨world, hworld, answered⟩ := answered
  exact ⟨world, h hworld, answered⟩

/-- A token that was found stays found when more worlds have been seen. -/
theorem Found.mono {id : ManagerId} {me : RefreshCall} {token : Token} {seen later : List World}
    (found : Found id me token seen) (h : seen ⊆ later) : Found id me token later := by
  obtain ⟨world, hworld, found⟩ := found
  exact ⟨world, h hworld, found⟩

/-- The task has arrived at the gate and asks the token source for nothing. -/
structure Arrived (start : World) (id : ManagerId) (me : RefreshCall) (held : List Nat)
    (history : History) : Prop where
  visit : Visit start me held (some (.manager id)) history
  present : me ∈ (history.now.manager id).gate.queue ∨
    (history.now.manager id).gate.holder = some me
  idle : (history.now.manager id).AwaitsNone me.task

/-- The task is inside the gate and awaits the answer to call number `n` of the token source. -/
structure Issuing (start : World) (id : ManagerId) (me : RefreshCall) (held : List Nat)
    (policy : RefreshPolicy) (n : Nat) (issue : IssueCall) (history : History) : Prop where
  visit : Visit start me held (some (.manager id)) history
  inside : (history.now.manager id).gate.holder = some me
  began : (start.manager id).calls.length ≤ n
  call : (history.now.manager id).calls[n]? = some issue
  mine : issue.caller = me
  underway : issue.isUnderway = true
  policy : (history.now.manager id).policy = policy

section Assertions

variable {start aside : World} {id : ManagerId} {me : RefreshCall} {held : List Nat}
  {history later : History}

/-- Whoever has arrived at the gate is still there after what happens elsewhere. -/
theorem Arrived.grows (arrived : Arrived start id me held history)
    (grows : history.Grows me.task later) : Arrived start id me held later where
  visit := arrived.visit.grows grows
  present := by
    refine grows.stable (P := fun world => me ∈ (world.manager id).gate.queue ∨
      (world.manager id).gate.holder = some me) ?_ arrived.present
    rintro world after elsewhere (hqueue | hholder)
    · exact elsewhere.manager_queue rfl hqueue
    · exact .inr (elsewhere.manager_holder rfl hholder)
  idle := grows.stable (P := fun world => (world.manager id).AwaitsNone me.task)
    (fun _ _ elsewhere => elsewhere.awaitsNone) arrived.idle

/-- A task that has arrived and does not wait is inside. -/
theorem Arrived.inside (arrived : Arrived start id me held history)
    (h : ¬ history.now.IsWaiting me.task) : (history.now.manager id).gate.holder = some me := by
  rcases arrived.present with hqueue | hholder
  · exact absurd ⟨.manager id, List.mem_map.mpr ⟨me, hqueue, rfl⟩⟩ h
  · exact hholder

/-- A call is still under way after what happens elsewhere. -/
theorem Issuing.grows {policy : RefreshPolicy} {n : Nat} {issue : IssueCall}
    (issuing : Issuing start id me held policy n issue history)
    (grows : history.Grows me.task later) : Issuing start id me held policy n issue later where
  visit := issuing.visit.grows grows
  inside := grows.stable (P := fun world => (world.manager id).gate.holder = some me)
    (fun _ _ elsewhere => elsewhere.manager_holder rfl) issuing.inside
  began := issuing.began
  call := grows.stable (P := fun world => (world.manager id).calls[n]? = some issue)
    (fun _ _ elsewhere => elsewhere.getElem?_calls (by rw [issuing.mine])) issuing.call
  mine := issuing.mine
  underway := issuing.underway
  policy := grows.stable (P := fun world => (world.manager id).policy = policy)
    (fun _ _ elsewhere h => (elsewhere.precedes.policies id).trans h) issuing.policy

/-- A call is still under way after a change beside the managers and caches. -/
theorem Issuing.beside {policy : RefreshPolicy} {n : Nat} {issue : IssueCall}
    (issuing : Issuing start id me held policy n issue history)
    (beside : history.now.Beside aside) :
    Issuing start id me held policy n issue (history.after aside) where
  visit := issuing.visit.beside beside
  inside := by rw [History.after, beside.manager, issuing.inside]
  began := issuing.began
  call := by rw [History.after, beside.manager, issuing.call]
  mine := issuing.mine
  underway := issuing.underway
  policy := by rw [History.after, beside.manager, issuing.policy]

end Assertions

section Gate

variable {start : World} {id : ManagerId} {me : RefreshCall} {held : List Nat} {history : History}

/-- A task that changes the manager and is away from its gate afterwards wakes only tasks that do
not wait any more. -/
theorem behaves_alterAndWake {f : TokenManager → TokenManager} {post : Unit → History → Prop}
    (sound : history.now.Sound) (known : id < history.now.managers.length)
    (deed : history.now.Deed me (history.now.alterManager id fun _ => f (history.now.manager id)))
    (haway : (f (history.now.manager id)).IsAway me.task)
    (hpost : post ()
      (history.after (history.now.alterManager id fun _ => f (history.now.manager id)))) :
    (id.alterAndWake f).Behaves me post history := by
  have hmanager : (history.now.alterManager id fun _ => f (history.now.manager id)).manager id =
      f (history.now.manager id) := by simp [World.manager_alterManager, known]
  unfold ManagerId.alterAndWake
  simp only [Activity.behaves_bind, Activity.behaves_world, Activity.behaves_modify]
  refine ⟨deed, ?_⟩
  split
  · next hchanged =>
    refine Activity.behaves_notify.mpr ⟨?_, hpost⟩
    intro task htask
    obtain ⟨call, hcall, rfl⟩ := Option.map_eq_some_iff.mp htask
    have hne : call.task ≠ me.task := haway call (Gate.mem_callers.mpr (.inl hcall))
    have hholder := hmanager ▸ hcall
    refine ⟨hne, ⟨.manager id, List.mem_map.mpr ⟨call, Gate.mem_callers.mpr (.inl hholder), rfl⟩⟩,
      deed.not_isWaiting_of_admitted sound hne ?_ hholder⟩
    intro hbefore
    exact hchanged (by rw [htask, TokenManager.admitted?, hbefore, Option.map_some])
  · exact hpost

/-- A task that visits the manager and goes away from its gate. -/
theorem Visit.behaves_alterAndWake {f : TokenManager → TokenManager} {post : Unit → History → Prop}
    (visit : Visit start me held (some (.manager id)) history) (known : id < start.managers.length)
    (deed : (history.now.manager id).Deed me history.now.now history.now.elapsed
      (f (history.now.manager id)))
    (haway : (f (history.now.manager id)).IsAway me.task)
    (hpost : ∀ world : World, world.manager id = f (history.now.manager id) →
      Visit start me held none (history.after world) → post () (history.after world)) :
    (id.alterAndWake f).Behaves me post history := by
  have hmanager := visit.manager_after (f := fun _ => f (history.now.manager id)) known (.refl _)
  have hvisit := (visit.after (f := fun _ => f (history.now.manager id)) (.refl _) deed).away
    (by rw [History.after, hmanager]; exact haway)
  exact CloudSession.behaves_alterAndWake visit.standing.sound (visit.known known)
    (visit.deed (f := fun _ => f (history.now.manager id)) (.refl _) deed) haway
    (hpost _ hmanager hvisit)

/-- A task awaits an answer for as long as the time limit allows, and the call ends accordingly. -/
theorem Issuing.behaves_awaitToken {policy : RefreshPolicy} {n : Nat} {issue : IssueCall}
    {answer : Underway (Except TokenError Token)} {post : Except TokenError Token → History → Prop}
    (issuing : Issuing start id me held policy n issue history)
    (hbegan : issue.began = history.now.elapsed) (hdelay : issue.delay = answer.delay)
    (harrive : ∀ later : World, later.Beside (answer.arrive later).1)
    (hpost : ∀ result later, Issuing start id me held policy n issue later →
      issue.EndsWith policy.timeout later.now.elapsed result → post result later) :
    (ManagerId.awaitToken policy answer).Behaves me post history := by
  have hnot := issuing.visit.standing.not_isWaiting_of_holder rfl issuing.inside
  unfold ManagerId.awaitToken
  split
  · next hintime =>
    refine Activity.behaves_await.mpr ⟨hnot, fun later grows => ?_⟩
    have hlater := issuing.grows grows
    have hbeside := harrive later.now
    refine ⟨hbeside.deed hlater.visit.standing.sound, hpost _ _ (hlater.beside hbeside) ?_⟩
    exact .answered _ (.inl (hdelay ▸ hintime))
  · next hlate =>
    simp only [Activity.behaves_bind, Activity.behaves_world, Activity.behaves_pause]
    refine ⟨hnot, fun later grows => ?_⟩
    have hlater := issuing.grows grows
    rw [← hbegan, ← hdelay]
    split
    · next hthere =>
      -- the task has its turn so late that the answer is there all the same
      have hbeside := harrive later.now
      refine Activity.behaves_update.mpr
        ⟨hbeside.deed hlater.visit.standing.sound, hpost _ _ (hlater.beside hbeside) ?_⟩
      refine .answered _ (.inr ?_)
      rw [History.after, hbeside.elapsed]
      exact hthere
    · next hnone =>
      refine Activity.behaves_pure.mpr (hpost _ _ hlater ?_)
      exact .tooLate (by rw [hdelay]; omega) (by omega)

/-- What holds once a task is done at the gate: it is away from it, and has an answer of the token
source or has found a token. -/
def Refreshed (start : World) (id : ManagerId) (me : RefreshCall) (held : List Nat)
    (answer : Except TokenError Token) (history : History) : Prop :=
  Visit start me held none history ∧
    (Answered start id me answer history.seen ∨
      ∃ token, answer = .ok token ∧ Found id me token history.seen)

/-- The answer of the token source is settled. -/
theorem Issuing.behaves_settle {policy : RefreshPolicy} {n : Nat} {issue : IssueCall}
    {answer : Except TokenError Token} (issuing : Issuing start id me held policy n issue history)
    (known : id < start.managers.length)
    (hends : issue.EndsWith policy.timeout history.now.elapsed answer) :
    (id.alterAndWake fun manager => manager.settle me answer).Behaves me
      (fun _ => Refreshed start id me held answer) history := by
  have hmem : issue ∈ (history.now.manager id).calls := List.mem_of_getElem? issuing.call
  have hcaller : me ∈ (history.now.manager id).gate.callers :=
    Gate.mem_callers.mpr (.inl issuing.inside)
  have hcoherent := issuing.visit.standing.sound.coherent id
  refine issuing.visit.behaves_alterAndWake known
    (.settle _ issue answer issuing.inside hmem issuing.mine issuing.underway
      (by rwa [issuing.policy]))
    (hcoherent.isAway_of_leave hcaller (TokenManager.settle_gate answer)) ?_
  intro world hworld hvisit
  refine ⟨hvisit, .inl ?_⟩
  refine ⟨world, History.now_mem_seen (history.after world), n, issue.concluded (.ended answer),
    issuing.began, ?_, ?_, by simp [issuing.mine], ?_⟩
  · rw [hworld, TokenManager.settle_calls, TokenManager.conclude, List.length_map]
    exact hcoherent.length_of_underway issuing.call issuing.underway
  · rw [hworld, TokenManager.settle_calls]
    simp [TokenManager.conclude, issuing.call, issuing.mine]
  · exact IssueCall.state_concluded_of_underway issuing.underway _

/-- A task inside the gate, where the token does not serve its purpose, turns to the token
source. -/
theorem Arrived.issuing (arrived : Arrived start id me held history)
    (known : id < start.managers.length)
    (hholder : (history.now.manager id).gate.holder = some me)
    (husable : (history.now.manager id).usable? me.purpose history.now.now = .ok none) :
    let begun := history.now.beginIssue id me
    history.now.Deed me begun.1 ∧
      Issuing start id me held (history.now.manager id).policy (history.now.manager id).calls.length
        { caller := me, began := history.now.elapsed, delay := begun.2.delay }
        (history.after begun.1) := by
  intro begun
  have hbeside := World.beside_issue history.now (history.now.managed id).issuer
  have hdeed : (history.now.manager id).Deed me history.now.now history.now.elapsed
      ((history.now.manager id).beginIssue me history.now.elapsed begun.2.delay) :=
    .ask _ _ hholder arrived.idle husable
  have hmanager : begun.1.manager id =
      (history.now.manager id).beginIssue me history.now.elapsed begun.2.delay :=
    arrived.visit.manager_after known hbeside
  refine ⟨arrived.visit.deed (f := (·.beginIssue me history.now.elapsed begun.2.delay)) hbeside hdeed,
    arrived.visit.after (f := (·.beginIssue me history.now.elapsed begun.2.delay)) hbeside hdeed, ?_,
    (arrived.visit.since.managers id).length_le, ?_, rfl, rfl, ?_⟩
  · rw [History.after, hmanager]
    exact hholder
  · rw [History.after, hmanager]
    simp [TokenManager.beginIssue]
  · rw [History.after, hmanager]
    rfl

/-- Such a task refreshes the token. -/
theorem Arrived.behaves_refreshInside (arrived : Arrived start id me held history)
    (known : id < start.managers.length)
    (hholder : (history.now.manager id).gate.holder = some me)
    (husable : (history.now.manager id).usable? me.purpose history.now.now = .ok none) :
    (id.refreshInside me).Behaves me (Refreshed start id me held) history := by
  obtain ⟨hdeed, hissuing⟩ := arrived.issuing known hholder husable
  unfold ManagerId.refreshInside
  simp only [Activity.behaves_bind, Activity.behaves_world, Activity.behaves_update]
  refine ⟨hdeed, hissuing.behaves_awaitToken hdeed.elapsed.symm rfl
    (fun later => World.beside_arrive history.now later _) ?_⟩
  intro answer later hlater hends
  split
  · simp only [Activity.behaves_bind, Activity.behaves_modify, Activity.behaves_pure]
    have hbeside := World.beside_warn later.now .refreshFailed
    exact ⟨hbeside.deed hlater.visit.standing.sound,
      (hlater.beside hbeside).behaves_settle known
        (by rwa [History.after, hbeside.elapsed])⟩
  · simp only [Activity.behaves_bind, Activity.behaves_pure]
    exact hlater.behaves_settle known hends

/-- A task inside the gate takes the token or refreshes it. -/
theorem Arrived.behaves_takeOrRefresh (arrived : Arrived start id me held history)
    (known : id < start.managers.length)
    (hholder : (history.now.manager id).gate.holder = some me) :
    (id.takeOrRefresh me).Behaves me (Refreshed start id me held) history := by
  unfold ManagerId.takeOrRefresh
  simp only [Activity.behaves_bind, Activity.behaves_world, Activity.behaves_check]
  rintro (- | token) husable
  · exact arrived.behaves_refreshInside known hholder husable
  · simp only [Activity.behaves_bind, Activity.behaves_pure]
    have hcaller : me ∈ (history.now.manager id).gate.callers := Gate.mem_callers.mpr (.inl hholder)
    have hcoherent := arrived.visit.standing.sound.coherent id
    refine arrived.visit.behaves_alterAndWake known (.leave _ token hholder arrived.idle husable)
      (hcoherent.isAway_of_leave hcaller rfl) ?_
    intro world _ hvisit
    refine ⟨hvisit, .inr ⟨token, rfl, ?_⟩⟩
    exact ⟨history.now, History.seen_subset_after _ _ history.now_mem_seen, hholder,
      TokenManager.token_of_usable husable, husable⟩

/-- A task that is away from the gate passes it and refreshes the token, unless it serves its
purpose then. -/
theorem Visit.behaves_refreshFor (visit : Visit start me held none history)
    (known : id < start.managers.length) :
    (id.refreshFor me.purpose).Behaves me (Refreshed start id me held) history := by
  have haway := visit.standing.managers id (by simp)
  have hdeed : (history.now.manager id).Deed me history.now.now history.now.elapsed
      ((history.now.manager id).arrive me) := .arrive _ haway
  have hmanager := visit.manager_after (f := (·.arrive me)) known (.refl _)
  have harrived : Arrived start id me held
      (history.after (history.now.alterManager id (·.arrive me))) := by
    refine ⟨(visit.toward _).after (.refl _) hdeed, ?_, ?_⟩
    · rw [History.after, hmanager]
      cases h : (history.now.manager id).gate.holder <;> simp [TokenManager.arrive, Gate.arrive, h]
    · rw [History.after, hmanager]
      exact (visit.standing.sound.coherent id).awaitsNone haway
  unfold ManagerId.refreshFor
  simp only [Activity.behaves_bind, Activity.behaves_world, Activity.behaves_me,
    Activity.behaves_modify]
  refine ⟨(visit.toward _).deed (.refl _) hdeed, ?_⟩
  split
  · simp only [Activity.behaves_bind, Activity.behaves_wait]
    intro later grows hadmitted
    have hlater := harrived.grows grows
    exact hlater.behaves_takeOrRefresh known (hlater.inside hadmitted)
  · next hadmits =>
    refine harrived.behaves_takeOrRefresh known ?_
    simpa [TokenManager.admits] using hadmits

end Gate

section Calls

variable {start : World} {id : ManagerId} {me : RefreshCall} {held : List Nat} {history : History}

/-- A task that starts a refresh that is advised changes nothing at the gate. -/
theorem Visit.behaves_advise (visit : Visit start me held none history)
    (known : id < start.managers.length) :
    id.advise.Behaves me (fun _ => Visit start me held none) history := by
  unfold ManagerId.advise
  simp only [Activity.behaves_bind, Activity.behaves_world]
  split
  · exact visit
  · next after hafter =>
    have hgate : after.gate = (history.now.manager id).gate := by
      rw [TokenManager.eq_of_advise hafter]
    obtain ⟨hdeed, hvisit⟩ := visit.quiet known (f := fun _ => after) (.advise _ after hafter) hgate
    simp only [Activity.behaves_bind, Activity.behaves_modify]
    refine ⟨hdeed, ?_⟩
    split
    · have hbeside := World.beside_engage (history.now.alterManager id fun _ => after) id
      have hengaged := hvisit.beside hbeside
      simp only [Activity.behaves_bind, Activity.behaves_modify, Activity.behaves_start]
      exact ⟨hbeside.deed hvisit.standing.sound, hengaged.known known, fun _ => hengaged⟩
    · exact hvisit.quiet known (f := TokenManager.adviceFollowed) (.adviceFollowed _) rfl

/-- What holds once a task has asked for the token: it is away from the gate, and was offered a
token when it asked, or has an answer of the token source, or has found a token. -/
def Obtained (start begun : World) (id : ManagerId) (me : RefreshCall) (held : List Nat)
    (answer : Except TokenError Token) (history : History) : Prop :=
  Visit start me held none history ∧ begun ∈ history.seen ∧
    ((∃ token, answer = .ok token ∧ Offered begun id token) ∨
      Answered start id me answer history.seen ∨
      ∃ token, answer = .ok token ∧ Found id me token history.seen)

/-- A task that asks for the token is offered the cached one or waits for one at the gate. -/
theorem Visit.behaves_get (visit : Visit start me held none history)
    (known : id < start.managers.length) (hpurpose : me.purpose = .avoidStale) :
    id.get.Behaves me (Obtained start history.now id me held) history := by
  unfold ManagerId.get
  simp only [Activity.behaves_bind, Activity.behaves_world, Activity.behaves_check]
  intro phase hphase
  have hrefresh : (id.refreshFor .avoidStale).Behaves me (Obtained start history.now id me held)
      history := by
    have hrefreshed := visit.behaves_refreshFor known
    rw [hpurpose] at hrefreshed
    refine (hrefreshed.remembers (List.Subset.refl _)).mono ?_
    rintro answer later ⟨⟨hvisit, hanswer⟩, hseen⟩
    exact ⟨hvisit, hseen history.now_mem_seen, .inr hanswer⟩
  cases phase with
  | stale => exact hrefresh
  | fresh =>
    cases htoken : (history.now.manager id).token with
    | none => exact hrefresh
    | some token =>
      exact ⟨visit, history.now_mem_seen, .inl ⟨token, rfl, htoken, .fresh, hphase, by simp⟩⟩
  | advised =>
    cases htoken : (history.now.manager id).token with
    | none => exact hrefresh
    | some token =>
      simp only [Activity.behaves_bind, Activity.behaves_pure]
      refine ((visit.behaves_advise known).remembers (List.Subset.refl _)).mono ?_
      rintro - later ⟨hvisit, hseen⟩
      exact ⟨hvisit, hseen history.now_mem_seen,
        .inl ⟨token, rfl, htoken, .advised, hphase, by simp⟩⟩

/-- A task that refreshes the token in any case. -/
theorem Visit.behaves_refresh (visit : Visit start me held none history)
    (known : id < start.managers.length) (hpurpose : me.purpose = .renew) :
    id.refresh.Behaves me (Refreshed start id me held) history := by
  have hrefreshed := visit.behaves_refreshFor known
  rwa [hpurpose] at hrefreshed

/-- A task that asks whether the token has expired changes nothing. -/
theorem behaves_isExpired {post : Bool → History → Prop} (hpost : ∀ expired,
    (history.now.manager id).isExpired history.now.now = .ok expired → post expired history) :
    id.isExpired.Behaves me post history := by
  unfold ManagerId.isExpired
  simp only [Activity.behaves_bind, Activity.behaves_world, Activity.behaves_check]
  exact hpost

/-- Whether the manager is in use is only looked up. -/
theorem behaves_isInUse {post : Bool → History → Prop} (hpost : ∀ inUse, post inUse history) :
    id.isInUse.Behaves me post history := by
  unfold ManagerId.isInUse
  simp only [Activity.behaves_bind, Activity.behaves_world, Activity.behaves_pure]
  exact hpost _

/-- Background refresh may be given up wherever a task is. -/
theorem behaves_stopBackground {post : Unit → History → Prop} (sound : history.now.Sound)
    (hpost : post ()
      (history.after (history.now.alterManager id TokenManager.stopBackground))) :
    id.stopBackground.Behaves me post history := by
  unfold ManagerId.stopBackground
  simp only [Activity.behaves_bind, Activity.behaves_world, Activity.behaves_modify,
    Activity.behaves_stop]
  exact ⟨sound.deed_quiet (f := TokenManager.stopBackground) (.stopBackground _) rfl, hpost⟩

/-- To stop a loop that nobody uses does nothing, or stops it. -/
theorem behaves_stopUnlessInUse {post : Unit → History → Prop} (sound : history.now.Sound)
    (hkept : post () history)
    (hstopped : post ()
      (history.after (history.now.alterManager id TokenManager.stopBackground))) :
    id.stopUnlessInUse.Behaves me post history := by
  unfold ManagerId.stopUnlessInUse
  simp only [Activity.behaves_bind]
  refine behaves_isInUse fun inUse => ?_
  split
  · exact behaves_stopBackground sound hstopped
  · exact hkept

/-- To stop background refresh does not end a visit. -/
theorem Visit.stopBackground (visit : Visit start me held none history)
    (known : id < start.managers.length) :
    Visit start me held none
      (history.after (history.now.alterManager id TokenManager.stopBackground)) :=
  (visit.quiet (f := TokenManager.stopBackground) known (.stopBackground _) rfl).2

/-- Background refresh starts without a change at the gate. -/
theorem Visit.behaves_startBackground (visit : Visit start me held none history)
    (known : id < start.managers.length) :
    id.startBackground.Behaves me (fun _ => Visit start me held none) history := by
  unfold ManagerId.startBackground
  simp only [Activity.behaves_bind, Activity.behaves_world]
  split
  · next hnone =>
    split
    · simp only [Activity.behaves_bind, Activity.behaves_start, Activity.behaves_modify]
      exact ⟨visit.known known, fun task => visit.quiet known (f := (·.startBackground task))
        (.startBackground _ task (by simpa using hnone)) rfl⟩
    · have hbeside := World.beside_warn history.now .noRuntime
      exact Activity.behaves_modify.mpr
        ⟨hbeside.deed visit.standing.sound, visit.beside hbeside⟩
  · exact visit

/-- To let go of a manager does not end a visit. -/
theorem Visit.behaves_drop (visit : Visit start me held none history)
    (known : id < start.managers.length) :
    id.drop.Behaves me (fun _ => Visit start me held none) history := by
  have hbeside := World.beside_drop history.now id
  unfold ManagerId.drop
  simp only [Activity.behaves_bind, Activity.behaves_modify]
  have hafter := visit.beside hbeside
  exact ⟨hbeside.deed visit.standing.sound,
    behaves_stopUnlessInUse hafter.standing.sound hafter (hafter.stopBackground known)⟩

/-- A task that follows advice is done with a manager without a change at the gate. -/
theorem behaves_disengage {post : Unit → History → Prop} (sound : history.now.Sound)
    (hkept : post () (history.after (history.now.disengage id)))
    (hstopped : post () ((history.after (history.now.disengage id)).after
      ((history.now.disengage id).alterManager id TokenManager.stopBackground))) :
    id.disengage.Behaves me post history := by
  have hdeed : history.now.Deed me (history.now.disengage id) :=
    (World.beside_disengage history.now id).deed sound
  unfold ManagerId.disengage
  simp only [Activity.behaves_bind, Activity.behaves_modify]
  exact ⟨hdeed, behaves_stopUnlessInUse (hdeed.sound sound) hkept hstopped⟩

end Calls

end CloudSession
