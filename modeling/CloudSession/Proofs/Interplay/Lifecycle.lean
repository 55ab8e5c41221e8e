import CloudSession.Proofs.Interplay.Discarded
import CloudSession.Proofs.Interplay.SingleFlight

/-!
# The life of background refresh

In every run, at most one loop of background refresh is alive for each manager. To start background
refresh while a loop is alive changes nothing, nor does it to stop it once more. A loop that is
stopped, or that ends with the last use of its manager, begins no call of the token source any more
and leaves the cached token alone, and with its next turn it is gone from the gate.
-/

namespace CloudSession.Interplay

/-- To ask for an operation changes nothing but that the name of the caller is taken. -/
def LeavesAlone (interplay : Interplay) (operation : Operation) : Prop :=
  (interplay.call operation).schedule = interplay.schedule.takeName

/-- Whoever asks for an operation has the reply at once. -/
def Replies (interplay : Interplay) (operation : Operation) (reply : Reply) : Prop :=
  ∃ client ∈ (interplay.call operation).clients, client.task = interplay.schedule.fresh ∧
    client.state = .finished reply

/-- An operation ends background refresh of a manager: it stops it, or it is the last use of the
manager while no refresh runs. -/
def Stops (interplay : Interplay) (id : ManagerId) (operation : Operation) : Prop :=
  operation = .stopBackground id ∨
    operation = .dropManager id ∧ ¬ (interplay.schedule.world.managed id).IsRefreshing

/-- What can come of a run in which nobody starts background refresh of a manager. -/
inductive Idles (id : ManagerId) : Interplay → Interplay → Prop
  | refl (interplay : Interplay) : Idles id interplay interplay
  | step {first last next : Interplay} : Idles id first last → Step last next →
      next ≠ last.call (.startBackground id) → Idles id first next

/-- What has come of a loop of background refresh that was there when `stopped` was reached. -/
structure LetGo (stopped later : Interplay) (id : ManagerId) (task : TaskId) : Prop where
  /-- It has begun no call of the token source. -/
  silent : ∀ (n k : Nat) (call : RefreshCall), stopped.story.length ≤ k + 1 →
    later.Began id n k call → call.task ≠ task
  /-- A call that it had underway is underway still, or it is broken off. -/
  abandoned : ∀ (n : Nat) (issue : IssueCall),
    (stopped.schedule.world.manager id).calls[n]? = some issue → issue.caller.task = task →
      issue.isUnderway = true →
        (later.schedule.world.manager id).calls[n]? = some issue ∨
          (later.schedule.world.manager id).calls[n]? = some { issue with state := .brokenOff }
  /-- Whatever it has done, the cached token was the same afterwards. -/
  token : ∀ (k : Nat) (earlier after : Moment) (call : RefreshCall),
    stopped.story.length ≤ k + 1 → later.story[k]? = some earlier →
      later.story[k + 1]? = some after → after.actor = some call → call.task = task →
        (after.world.manager id).token = (earlier.world.manager id).token
  /-- As long as it is there, it can run, and with its next turn it is no more. -/
  due : ∀ loop ∈ later.schedule.tasks, loop.id = task →
    task ∈ later.schedule.ready ∧ later.FreesGate id loop
  /-- Once it is no more, it is not at the gate and awaits no answer. -/
  gone : (∀ loop ∈ later.schedule.tasks, loop.id ≠ task) →
    (later.schedule.world.manager id).IsAway task ∧
      (later.schedule.world.manager id).AwaitsNone task

/-- The life of background refresh of a manager. -/
structure Lifecycle (interplay : Interplay) (id : ManagerId) : Prop where
  /-- At most one loop is alive. -/
  one : ∀ task other, interplay.schedule.IsAlive id task → interplay.schedule.IsAlive id other →
    task = other
  /-- While a loop is alive, to start background refresh changes nothing. -/
  start : ∀ task, interplay.schedule.IsAlive id task →
    interplay.LeavesAlone (.startBackground id)
  /-- To start background refresh and to end it are done at once. -/
  returns : ∀ operation, operation = .startBackground id ∨ interplay.Stops id operation →
    interplay.Replies operation .done
  /-- Once background refresh is ended, and until somebody starts it, no loop is alive, and to stop
  it once more changes nothing. -/
  still : ∀ operation, interplay.Stops id operation →
    ∀ later, Idles id (interplay.call operation) later →
      (∀ task, ¬ later.schedule.IsAlive id task) ∧ later.LeavesAlone (.stopBackground id)
  /-- A loop is let go once background refresh is ended. -/
  letGo : ∀ operation, interplay.Stops id operation →
    ∀ later, (interplay.call operation).Runs later →
      ∀ task, interplay.schedule.IsLoop id task →
        (interplay.call operation).LetGo later id task

variable {interplay stopped later first last : Interplay} {id : ManagerId} {task : TaskId}
  {operation : Operation}

/-- To be idle for a while is a run. -/
theorem Idles.runs (idles : Idles id first last) : first.Runs last := by
  induction idles with
  | refl => exact .refl _
  | step _ step _ ih => exact ih.step step

/-! ## Start and stop -/

/-- A call leads to the schedule that the turn of its caller leads to. -/
theorem schedule_call (interplay : Interplay) (operation : Operation) :
    (interplay.call operation).schedule =
      (Schedule.turn interplay.schedule.fresh operation.activity interplay.schedule.takeName).1 :=
  rfl

/-- What stops background refresh fits a world that has the manager. -/
theorem Stops.fits (stops : interplay.Stops id operation)
    (known : id < interplay.schedule.world.managers.length) :
    operation.Fits interplay.schedule.world := by
  rcases stops with rfl | ⟨rfl, -⟩ <;> exact known

/-- To end background refresh is done in a single turn, in which it is given up. -/
theorem Stops.turn_eq (stops : interplay.Stops id operation)
    (known : id < interplay.schedule.world.managers.length) :
    ∃ schedule : Schedule, id < schedule.world.managers.length ∧
      Schedule.turn interplay.schedule.fresh operation.activity interplay.schedule.takeName =
        (schedule.giveUp id, .finished .done) := by
  rcases stops with rfl | ⟨rfl, hidle⟩
  · exact ⟨interplay.schedule.takeName, known,
      Schedule.turn_map (Schedule.turn_stopBackground _ id _) _⟩
  · exact ⟨_, by simpa [World.drop, Schedule.takeName] using known,
      Schedule.turn_map (Schedule.turn_drop _ interplay.schedule.takeName known hidle) _⟩

/-- Once background refresh is ended, the manager knows of no loop. -/
theorem Stops.background_eq (stops : interplay.Stops id operation)
    (known : id < interplay.schedule.world.managers.length) :
    ((interplay.call operation).schedule.world.manager id).background = none := by
  obtain ⟨schedule, hknown, hturn⟩ := stops.turn_eq known
  rw [schedule_call, hturn, Schedule.giveUp_world, World.manager_alterManager, if_pos ⟨rfl, hknown⟩]
  rfl

/-- A caller whose first turn comes to its end has its reply. -/
theorem replies_of_turn {reply : Reply}
    (h : (Schedule.turn interplay.schedule.fresh operation.activity
      interplay.schedule.takeName).2 = .finished reply) : interplay.Replies operation reply := by
  refine ⟨_, List.mem_map_of_mem (List.mem_map_of_mem
    (List.mem_append_right _ (List.mem_singleton_self _))), ?_⟩
  rw [Client.task_watch, if_pos rfl]
  exact ⟨rfl, h⟩

/-- A step that is no start leaves a manager without background refresh. -/
theorem Step.background_eq (step : Step first last) (tended : first.Tended)
    (hstart : last ≠ first.call (.startBackground id))
    (h : (first.schedule.world.manager id).background = none) :
    (last.schedule.world.manager id).background = none := by
  rcases step.startsNoLoop_or tended with hstarts | ⟨other, -, rfl⟩
  · rcases hstarts.background id with hkept | ⟨hnone, -⟩
    · rw [hkept, h]
    · exact hnone
  · have hne : other ≠ id := fun heq => hstart (by rw [heq])
    rw [schedule_call, Schedule.turn_start]
    obtain ⟨after, hturn, ⟨-, rfl⟩ | ⟨world, hmanagers, rfl⟩⟩ :=
      Schedule.turn_startBackground_cases first.schedule.fresh other first.schedule.takeName
    · rw [hturn, World.manager_alterManager, if_neg fun heq => hne heq.1]
      exact h
    · rwa [hturn, World.manager, World.managed, hmanagers]

/-- While a manager without a loop is left idle, it has none. -/
theorem Idles.background_eq (idles : Idles id first last) (sound : first.Sound none)
    (tended : first.Tended) (h : (first.schedule.world.manager id).background = none) :
    (last.schedule.world.manager id).background = none := by
  induction idles with
  | refl => exact h
  | step idles step hstart ih =>
    exact step.background_eq (idles.runs.tended sound tended) hstart ih

/-- Where the manager knows of no loop, none is alive, and there is nothing to stop. -/
theorem Tended.still (tended : interplay.Tended)
    (h : (interplay.schedule.world.manager id).background = none) :
    (∀ task, ¬ interplay.schedule.IsAlive id task) ∧
      interplay.LeavesAlone (.stopBackground id) := by
  refine ⟨fun task alive => ?_, ?_⟩
  · rw [tended.schedule.tracked id task alive] at h
    cases h
  · rw [LeavesAlone, schedule_call, Operation.activity,
      Schedule.turn_map (Schedule.turn_stopBackground _ id _)]
    exact Schedule.giveUp_eq_self h

/-! ## A loop that is let go -/

/-- A loop is given up once background refresh is ended. -/
theorem Stops.discarded (stops : interplay.Stops id operation) (sound : interplay.Sound none)
    (tended : interplay.Tended) (known : id < interplay.schedule.world.managers.length)
    (hloop : interplay.schedule.IsLoop id task) :
    Discarded (interplay.call operation) (interplay.call operation) id task := by
  have hsound := sound.call (stops.fits known)
  have htended := tended.call (stops.fits known)
  have hnone := (htended.still (stops.background_eq known)).1
  obtain ⟨loop, hmem, rfl, hjob⟩ := hloop
  obtain ⟨later, hlater, hbecomes⟩ := (Schedule.advances_turn interplay.schedule.fresh
    operation.activity interplay.schedule.takeName).kept loop hmem
  have hid := hbecomes.id_eq
  have hsame : ∀ other ∈ (interplay.call operation).schedule.tasks, other.id = loop.id →
      other = later := fun other hother heq =>
    List.inj_on_of_nodup_map hsound.orderly.distinct hother hlater (heq.trans hid.symm)
  have haborted : later.aborted = true := by
    by_contra halive
    exact hnone loop.id ⟨later, hlater, hid, hbecomes.job_eq.trans hjob, by simpa using halive⟩
  exact {
    born := hid ▸ hsound.orderly.born later hlater
    clients := fun client hclient heq =>
      hsound.apart client hclient later hlater (hid.trans heq.symm)
    aborted := fun other hother heq => by
      rw [hsame other hother heq]
      exact ⟨haborted, hbecomes.job_eq.trans hjob⟩
    away := fun hgone => absurd hid (hgone later hlater)
    story := List.prefix_refl _
    moments := fun k earlier after hk _ hafter => by
      have hlt := (List.getElem?_eq_some_iff.mp hafter).1
      omega }

/-- A call that a loop had underway when it was given up never yields a token. -/
theorem Discarded.issue_cases (discarded : Discarded stopped later id task)
    (hstopped : stopped.Sound none) (sound : later.Sound none) {n : Nat} {issue : IssueCall}
    (hissue : (stopped.schedule.world.manager id).calls[n]? = some issue)
    (htask : issue.caller.task = task) (hunderway : issue.isUnderway = true) :
    (later.schedule.world.manager id).calls[n]? = some issue ∨
      (later.schedule.world.manager id).calls[n]? = some { issue with state := .brokenOff } := by
  let broken : IssueCall := { issue with state := .brokenOff }
  let Remains (world : World) : Prop :=
    (world.manager id).calls[n]? = some issue ∨ (world.manager id).calls[n]? = some broken
  have hbreaks : issue.concluded .brokenOff = broken := if_pos hunderway
  have hbroken : broken.concluded .brokenOff = broken := rfl
  have hstep (k : Nat) (earlier after : Moment) (hk : stopped.story.length ≤ k + 1)
      (hearlier : later.story[k]? = some earlier) (hafter : later.story[k + 1]? = some after)
      (h : Remains earlier.world) : Remains after.world := by
    have hfollows := sound.follows hearlier hafter
    unfold Moment.Follows at hfollows
    split at hfollows
    · next me hactor =>
      have deed := hfollows.managers id
      by_cases hme : me.task = task
      · have habandons := discarded.moments k earlier after hk hearlier hafter me hactor hme
        rcases h with h | h
        · exact (habandons.getElem?_calls h).imp_right fun h' => h'.trans (by rw [hbreaks])
        · exact .inr ((habandons.getElem?_calls h).elim (fun h' => h')
            fun h' => h'.trans (by rw [hbroken]))
      · have hne : issue.caller.task ≠ me.task := by
          rw [htask]
          exact Ne.symm hme
        exact h.imp (deed.getElem?_calls hne) (deed.getElem?_calls hne)
    · simp only [Remains, hfollows.manager_eq]
      exact h
  obtain ⟨present, hpresent, hworld⟩ := Option.map_eq_some_iff.mp hstopped.present
  obtain ⟨final, hfinal, hnow⟩ := Option.map_eq_some_iff.mp sound.present
  -- the induction is on the moments since the loop was given up
  have hall (k : Nat) (hk : stopped.story.length - 1 ≤ k) (moment : Moment)
      (hmoment : later.story[k]? = some moment) : Remains moment.world := by
    induction k, hk using Nat.le_induction generalizing moment with
    | base =>
      obtain ⟨more, hmore⟩ := discarded.story
      rw [List.getLast?_eq_getElem?] at hpresent
      have hlt := (List.getElem?_eq_some_iff.mp hpresent).1
      rw [← hmore, List.getElem?_append_left hlt, hpresent] at hmoment
      rw [← Option.some.inj hmoment, hworld]
      exact .inl hissue
    | succ k hk ih =>
      have hlt : k < later.story.length :=
        Nat.lt_of_succ_lt (List.getElem?_eq_some_iff.mp hmoment).1
      have hbetween := List.getElem?_eq_getElem hlt
      exact hstep k _ moment (Nat.sub_le_iff_le_add.mp hk) hbetween hmoment (ih _ hbetween)
  rw [List.getLast?_eq_getElem?] at hfinal
  have hlength := discarded.story.length_le
  exact hnow ▸ hall _ (Nat.sub_le_sub_right hlength 1) final hfinal

/-- What has come of a loop that was given up. -/
theorem Discarded.letGo (discarded : Discarded stopped later id task)
    (hstopped : stopped.Sound none) (sound : later.Sound none) (tended : later.Tended) :
    stopped.LetGo later id task where
  silent n k call hk began := by
    rintro rfl
    obtain ⟨earlier, after, hearlier, hafter, hactor, hbegins⟩ := began
    obtain ⟨began, delay, hcalls⟩ := hbegins.calls
    have habandons := discarded.moments k earlier after hk hearlier hafter call hactor rfl
    have hlength := congrArg List.length hcalls
    rcases habandons.calls with hkept | hbroken
    · rw [hkept] at hlength
      simp at hlength
    · rw [hbroken] at hlength
      simp [TokenManager.conclude] at hlength
  abandoned n issue hissue htask hunderway :=
    discarded.issue_cases hstopped sound hissue htask hunderway
  token k earlier after call hk hearlier hafter hactor htask :=
    (discarded.moments k earlier after hk hearlier hafter call hactor htask).token
  due loop hloop hid := by
    obtain ⟨haborted, hjob⟩ := discarded.aborted loop hloop hid
    have hready := tended.schedule.urgent loop hloop haborted (by simp)
    exact ⟨hid ▸ hready, (sound.turnOfAborted hloop hjob haborted).1⟩
  gone hgone :=
    ⟨discarded.away hgone, (sound.orderly.sound.coherent id).awaitsNone (discarded.away hgone)⟩

/-- In every run, background refresh of every manager lives as it should. -/
theorem Reachable.lifecycle (reachable : interplay.Reachable)
    (known : id < interplay.schedule.world.managers.length) : interplay.Lifecycle id where
  one task other halive hother := by
    have htask := reachable.tended.schedule.tracked id task halive
    have hother' := reachable.tended.schedule.tracked id other hother
    exact Option.some.inj (htask.symm.trans hother')
  start task halive := by
    have htask := reachable.tended.schedule.tracked id task halive
    rw [LeavesAlone, schedule_call, Schedule.turn_start,
      (@Schedule.turn_startBackground_of_some interplay.schedule.takeName id task _ htask).1]
  returns operation h := by
    rcases h with rfl | stops
    · exact replies_of_turn (by rw [Schedule.turn_start])
    · obtain ⟨_, -, hturn⟩ := stops.turn_eq known
      exact replies_of_turn (by rw [hturn])
  still operation stops later idles := by
    have hsound := reachable.sound.call (stops.fits known)
    have htended := reachable.tended.call (stops.fits known)
    have hnone := idles.background_eq hsound htended (stops.background_eq known)
    exact (idles.runs.tended hsound htended).still hnone
  letGo operation stops later runs task hloop := by
    have hsound := reachable.sound.call (stops.fits known)
    have htended := reachable.tended.call (stops.fits known)
    have hdiscarded := stops.discarded reachable.sound reachable.tended known hloop
    exact (hdiscarded.runs hsound runs).letGo hsound (runs.sound hsound)
      (runs.tended hsound htended)

/-- Background refresh has been started; a token will be there a second after it is asked for. -/
def loopStarted : Interplay :=
  let answer : IssuerAnswer :=
    { delay := .ofSeconds 1, token := fun now => .ok (.issued "late" "" "" 3600 now) }
  (start (.solo {} [answer])).call (.startBackground 0)

/-- The loop has asked for a token, and somebody else waits for it at the gate. -/
def refreshUnderway : Interplay :=
  ((loopStarted.giveTaskTurn 2).giveTaskTurn 2).call (.getToken 0)

/-- If background refresh is stopped then, whoever waits is inside the gate once the loop has had
its last turn. -/
theorem refreshUnderway_lifecycle :
    refreshUnderway.Reachable ∧ refreshUnderway.schedule.IsAlive 0 2 ∧
      (refreshUnderway.schedule.world.manager 0).gate.callers =
        [⟨2, .renew⟩, ⟨3, .avoidStale⟩] ∧
      (((refreshUnderway.call (.stopBackground 0)).giveTaskTurn 2).schedule.world.manager
        0).gate.callers = [⟨3, .avoidStale⟩] ∧
      0 < refreshUnderway.schedule.world.managers.length ∧ refreshUnderway.Lifecycle 0 := by
  have reachable : refreshUnderway.Reachable := by
    obtain ⟨world, untouched, runs⟩ : loopStarted.Reachable :=
      ⟨_, World.untouched_solo _ _, .step (.refl _) (.call Nat.zero_lt_one)⟩
    have hwaited : Runs (start world) (loopStarted.giveTaskTurn 2) :=
      runs.giveTaskTurn (by decide +kernel)
    have hasked : Runs (start world) ((loopStarted.giveTaskTurn 2).giveTaskTurn 2) :=
      hwaited.giveTaskTurn (by decide +kernel)
    have hfits : 0 < ((loopStarted.giveTaskTurn 2).giveTaskTurn 2).schedule.world.managers.length :=
      by decide +kernel
    exact ⟨world, untouched, hasked.step (.call hfits)⟩
  have known : 0 < refreshUnderway.schedule.world.managers.length := by decide +kernel
  have halive : refreshUnderway.schedule.IsAlive 0 2 := by
    refine ⟨_, List.mem_singleton_self _, rfl, rfl, rfl⟩
  exact ⟨reachable, halive, by decide +kernel, by decide +kernel, known,
    reachable.lifecycle known⟩

end CloudSession.Interplay
