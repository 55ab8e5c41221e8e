import CloudSession.Proofs.Background.Loop

/-!
# The turns of background refresh

To start background refresh, to stop it, to end the use of a manager and to break off are each done
in a single turn. Of all that callers and tasks do, only the start of background refresh starts a
loop.
-/

namespace CloudSession

/-- A refresh runs that keeps a manager in use when its owner is done with it: a task follows advice,
or a refresh in the background is under way. -/
def Managed.IsRefreshing (entry : Managed) : Prop :=
  entry.followers ≠ 0 ∨
    ∃ task, entry.manager.background = some task ∧ entry.manager.isCalledBy task = true

namespace World

variable {world : World} {id : ManagerId}

/-- That its owner is done with a manager leaves it to the refreshes that run. -/
theorem isRefreshing_drop (world : World) (id : ManagerId) :
    ((world.drop id).managed id).IsRefreshing ↔ (world.managed id).IsRefreshing := by
  have hentry : (world.drop id).managed id =
      { world.managed id with dropped := ((world.drop id).managed id).dropped } := by
    simp only [managed, drop, List.getD_eq_getElem?_getD, List.getElem?_modify]
    cases world.managers[id]? <;> simp
  rw [hentry]
  exact Iff.rfl

/-- A manager that has been let go counts as dropped. -/
theorem dropped_drop (known : id < world.managers.length) :
    ((world.drop id).managed id).dropped = true := by
  simp [managed, drop, List.getD_eq_getElem?_getD, known]

/-- A change that leaves a manager as it is leaves everything as it is. -/
theorem alterManager_eq_self {f : TokenManager → TokenManager}
    (h : f (world.manager id) = world.manager id) : world.alterManager id f = world := by
  have hmanagers : (world.managers.modify id fun entry =>
      { entry with manager := f entry.manager }) = world.managers := by
    refine List.ext_getElem? fun n => ?_
    rw [List.getElem?_modify]
    cases hentry : world.managers[n]? with
    | none => rfl
    | some entry =>
      by_cases heq : id = n
      · subst heq
        have hsame : f entry.manager = entry.manager := by
          simpa [manager, managed, List.getD_eq_getElem?_getD, hentry] using h
        simp [hsame]
      · simp [heq]
  rw [alterManager, hmanagers]

/-- A manager without background refresh has nothing to give up. -/
theorem alterManager_stopBackground (h : (world.manager id).background = none) :
    world.alterManager id TokenManager.stopBackground = world :=
  alterManager_eq_self (by rw [TokenManager.stopBackground, ← h])

/-- Advice that is noted and taken back leaves everything as it was. -/
theorem alterManager_adviceFollowed {advised : TokenManager}
    (h : (world.manager id).advise = some advised) :
    (world.alterManager id fun _ => advised).alterManager id TokenManager.adviceFollowed =
      world := by
  have hboth : (world.alterManager id fun _ => advised).alterManager id
      TokenManager.adviceFollowed = world.alterManager id fun _ => advised.adviceFollowed := by
    simp only [alterManager, List.modify_modify_eq]
    rfl
  rw [hboth]
  refine alterManager_eq_self ?_
  rw [TokenManager.eq_of_advise h, TokenManager.adviceFollowed,
    ← TokenManager.advisoryInFlight_of_advise h]

/-- A task goes away from the gate of a manager: no token is cached, and no call but one that it
breaks off changes. -/
structure Abandons (task : TaskId) (id : ManagerId) (world after : World) : Prop where
  token : (after.manager id).token = (world.manager id).token
  calls : (after.manager id).calls = (world.manager id).calls ∨
    (after.manager id).calls = ((world.manager id).conclude task .brokenOff).calls

/-- To stop background refresh abandons no call. -/
theorem Abandons.stopBackground (task : TaskId) (id : ManagerId) (world : World) :
    world.Abandons task id (world.alterManager id TokenManager.stopBackground) := by
  constructor
  · rw [manager_alterManager]
    split <;> rfl
  · rw [manager_alterManager]
    left
    split <;> rfl

/-- To abandon the call of a task abandons it in the world. -/
theorem Abandons.abandon (task : TaskId) (known : id < world.managers.length) :
    world.Abandons task id
      (world.alterManager id fun _ => (world.manager id).abandon task) := by
  have hmanager : (world.alterManager id fun _ => (world.manager id).abandon task).manager id =
      (world.manager id).abandon task := by simp [manager_alterManager, known]
  obtain ⟨heq, -⟩ | ⟨call, -, rfl, heq⟩ := (world.manager id).abandon_cases task
  · exact ⟨by rw [hmanager, heq], .inl (by rw [hmanager, heq])⟩
  · exact ⟨by rw [hmanager, heq]; rfl, .inr (by rw [hmanager, heq]; rfl)⟩

/-- A call stays as it is, or it is broken off. -/
theorem Abandons.getElem?_calls {after : World} {task : TaskId} {n : Nat} {issue : IssueCall}
    (abandons : world.Abandons task id after) (h : (world.manager id).calls[n]? = some issue) :
    (after.manager id).calls[n]? = some issue ∨
      (after.manager id).calls[n]? = some (issue.concluded .brokenOff) := by
  rcases abandons.calls with hkept | hbroken
  · exact .inl (hkept ▸ h)
  · rw [hbroken, TokenManager.conclude, List.getElem?_map, h, Option.map_some]
    split
    · exact .inr rfl
    · exact .inl rfl

end World

namespace Schedule

variable {schedule : Schedule} {id : ManagerId} {me task : TaskId}

/-! ## Advice -/

section Advice

variable {advised : TokenManager}

/-- Where a refresh that was advised is under way already, nothing happens. -/
theorem turn_advise_of_inFlight (me : TaskId)
    (h : (schedule.world.manager id).advisoryInFlight = true) :
    turn me id.advise schedule = (schedule, .finished ()) ∧ passed me id.advise schedule = [] := by
  have hnone : (schedule.world.manager id).advise = none := if_pos h
  unfold ManagerId.advise
  simp only [bind, Activity.bind, Activity.world, turn, passed, hnone]
  exact ⟨rfl, rfl⟩

/-- A task is started that follows the advice. -/
theorem turn_advise (me : TaskId) (hadvise : (schedule.world.manager id).advise = some advised)
    (htasks : schedule.world.canStartTasks = true) :
    turn me id.advise schedule =
        (Schedule.spawn { schedule with
          world := (schedule.world.alterManager id fun _ => advised).engage id } (.advisory id),
          .finished ()) ∧
      passed me id.advise schedule =
        [schedule.world.alterManager id fun _ => advised,
          (schedule.world.alterManager id fun _ => advised).engage id] := by
  unfold ManagerId.advise
  simp only [bind, Activity.bind, Activity.world, turn, passed, hadvise, Activity.modify, htasks,
    if_true, Activity.start]
  exact ⟨rfl, rfl⟩

/-- Where no task can be started, the note is taken back at once. -/
theorem turn_advise_inVain (me : TaskId)
    (hadvise : (schedule.world.manager id).advise = some advised)
    (htasks : schedule.world.canStartTasks = false) :
    turn me id.advise schedule = (schedule, .finished ()) ∧
      passed me id.advise schedule =
        [schedule.world.alterManager id fun _ => advised, schedule.world] := by
  have hback := World.alterManager_adviceFollowed hadvise
  unfold ManagerId.advise
  simp only [bind, Activity.bind, Activity.world, turn, passed, hadvise, Activity.modify, htasks,
    if_false, Bool.false_eq_true, hback, and_self]

end Advice

/-! ## Start and stop -/

/-- A loop is started, and the manager knows it. -/
theorem turn_startBackground (me : TaskId) (h : (schedule.world.manager id).background = none)
    (htasks : schedule.world.canStartTasks = true) :
    turn me id.startBackground schedule =
        ({ schedule.spawn (.background id) with
            world := schedule.world.alterManager id (·.startBackground schedule.fresh) },
          .finished ()) ∧
      passed me id.startBackground schedule =
        [schedule.world.alterManager id (·.startBackground schedule.fresh)] := by
  unfold ManagerId.startBackground
  simp only [bind, Activity.bind, Activity.world, turn, passed, h, Option.isNone_none, if_true,
    htasks]
  exact ⟨rfl, rfl⟩

/-- Where no task can be started, the start of background refresh only warns. -/
theorem turn_startBackground_inVain (me : TaskId)
    (h : (schedule.world.manager id).background = none)
    (htasks : schedule.world.canStartTasks = false) :
    turn me id.startBackground schedule =
        ({ schedule with world := schedule.world.warn .noRuntime }, .finished ()) ∧
      passed me id.startBackground schedule = [schedule.world.warn .noRuntime] := by
  unfold ManagerId.startBackground
  simp only [bind, Activity.bind, Activity.world, turn, passed, h, Option.isNone_none, if_true,
    htasks, Bool.false_eq_true, if_false]
  exact ⟨rfl, rfl⟩

/-- While background refresh is running, its start does nothing. -/
theorem turn_startBackground_of_some (me : TaskId)
    (h : (schedule.world.manager id).background = some task) :
    turn me id.startBackground schedule = (schedule, .finished ()) ∧
      passed me id.startBackground schedule = [] := by
  unfold ManagerId.startBackground
  simp only [bind, Activity.bind, Activity.world, turn, passed, h]
  exact ⟨rfl, rfl⟩

/-- To start background refresh starts a loop that the manager knows, or leaves all managers alone. -/
theorem turn_startBackground_cases (me : TaskId) (id : ManagerId) (schedule : Schedule) :
    ∃ after, turn me id.startBackground schedule = (after, .finished ()) ∧
      ((schedule.world.manager id).background = none ∧
          after = { schedule.spawn (.background id) with
            world := schedule.world.alterManager id (·.startBackground schedule.fresh) } ∨
        ∃ world : World, world.managers = schedule.world.managers ∧
          after = { schedule with world }) := by
  cases h : (schedule.world.manager id).background with
  | some task => exact ⟨_, (turn_startBackground_of_some me h).1, .inr ⟨_, rfl, rfl⟩⟩
  | none =>
    cases htasks : schedule.world.canStartTasks with
    | true => exact ⟨_, (turn_startBackground me h htasks).1, .inl ⟨rfl, rfl⟩⟩
    | false =>
      have hmanagers : (schedule.world.warn .noRuntime).managers = schedule.world.managers := by
        unfold World.warn
        split <;> rfl
      exact ⟨_, (turn_startBackground_inVain me h htasks).1, .inr ⟨_, hmanagers, rfl⟩⟩

/-- To stop background refresh gives up the loop. -/
theorem turn_stopBackground (me : TaskId) (id : ManagerId) (schedule : Schedule) :
    turn me id.stopBackground schedule = (schedule.giveUp id, .finished ()) := by
  unfold giveUp ManagerId.stopBackground
  cases h : (schedule.world.manager id).background <;>
    simp only [bind, Activity.bind, Activity.world, Activity.modify, Activity.stop, turn, h]

/-- To stop background refresh is a single write. -/
theorem passed_stopBackground (me : TaskId) (id : ManagerId) (schedule : Schedule) :
    passed me id.stopBackground schedule =
      [schedule.world.alterManager id TokenManager.stopBackground] := by
  unfold ManagerId.stopBackground
  cases h : (schedule.world.manager id).background <;>
    simp only [bind, Activity.bind, Activity.world, Activity.modify, Activity.stop, passed, h]

/-- To give up background refresh where there is none changes nothing. -/
theorem giveUp_eq_self (h : (schedule.world.manager id).background = none) :
    schedule.giveUp id = schedule := by
  simp only [giveUp, h, World.alterManager_stopBackground h]

/-! ## The end of the use of a manager -/

/-- Whether a manager is in use is only looked up. Nobody uses one that its owner is done with, if
no refresh runs. -/
private theorem isInUse_cases (me : TaskId) (id : ManagerId) (schedule : Schedule) :
    ∃ inUse, turn me id.isInUse schedule = (schedule, .finished inUse) ∧
      passed me id.isInUse schedule = [] ∧
      ((schedule.world.managed id).dropped = true →
        ¬ (schedule.world.managed id).IsRefreshing → inUse = false) := by
  refine ⟨_, rfl, rfl, fun hdropped hidle => ?_⟩
  obtain ⟨hfollowers, hloop⟩ := not_or.mp hidle
  simp only [hdropped, Bool.not_true, Bool.false_or]
  cases hbackground : (schedule.world.managed id).manager.background with
  | none => simpa using hfollowers
  | some task =>
    have hcalled : (schedule.world.managed id).manager.isCalledBy task ≠ true :=
      fun h => hloop ⟨task, hbackground, h⟩
    simp [hfollowers, hcalled]

/-- Background refresh goes on, or it is given up; it is, if nobody uses the manager. -/
theorem stopUnlessInUse_cases (me : TaskId) (id : ManagerId) (schedule : Schedule) :
    turn me id.stopUnlessInUse schedule = (schedule, .finished ()) ∧
        passed me id.stopUnlessInUse schedule = [] ∧
        ((schedule.world.managed id).dropped = true → (schedule.world.managed id).IsRefreshing) ∨
      turn me id.stopUnlessInUse schedule = (schedule.giveUp id, .finished ()) ∧
        passed me id.stopUnlessInUse schedule =
          [schedule.world.alterManager id TokenManager.stopBackground] := by
  obtain ⟨inUse, hturn, hpassed, hidle⟩ := isInUse_cases me id schedule
  unfold ManagerId.stopUnlessInUse
  rw [turn_bind_of_finished hturn, passed_bind_of_finished hturn, hpassed]
  cases inUse with
  | true =>
    refine .inl ⟨rfl, rfl, fun hdropped => ?_⟩
    by_contra hnone
    cases hidle hdropped hnone
  | false => exact .inr ⟨turn_stopBackground me id schedule, passed_stopBackground me id schedule⟩

/-- With the last use of a manager, its background refresh is given up. -/
theorem turn_drop (me : TaskId) (schedule : Schedule)
    (known : id < schedule.world.managers.length)
    (hidle : ¬ (schedule.world.managed id).IsRefreshing) :
    turn me id.drop schedule =
      (({ schedule with world := schedule.world.drop id } : Schedule).giveUp id, .finished ()) := by
  have hdropped : turn me (Activity.modify fun world => world.drop id) schedule =
      ({ schedule with world := schedule.world.drop id }, .finished ()) := rfl
  have hturn : turn me id.drop schedule =
      turn me id.stopUnlessInUse { schedule with world := schedule.world.drop id } :=
    turn_bind_of_finished hdropped _
  rw [hturn]
  obtain ⟨-, -, hrefreshing⟩ | ⟨h, -⟩ :=
    stopUnlessInUse_cases me id { schedule with world := schedule.world.drop id }
  · have hstill := hrefreshing (World.dropped_drop known)
    rw [World.isRefreshing_drop] at hstill
    exact absurd hstill hidle
  · exact h

/-- A task that follows advice is done with a manager, and at most background refresh is given up. -/
theorem turn_disengage (me : TaskId) (id : ManagerId) (schedule : Schedule) :
    ∃ after, turn me id.disengage schedule = (after, .finished ()) ∧
      (after = { schedule with world := schedule.world.disengage id } ∨
        after = Schedule.giveUp { schedule with world := schedule.world.disengage id } id) := by
  let done : Schedule := { schedule with world := schedule.world.disengage id }
  have hturn : turn me id.disengage schedule = turn me id.stopUnlessInUse done := rfl
  rw [hturn]
  obtain ⟨hstays, -⟩ | ⟨hgives, -⟩ := stopUnlessInUse_cases me id done
  · exact ⟨_, hstays, .inl rfl⟩
  · exact ⟨_, hgives, .inr rfl⟩

/-! ## A task that breaks off -/

/-- A change of a manager, after which whoever it lets through the gate can run. -/
private theorem alterAndWake_cases (me : TaskId) (id : ManagerId)
    (f : TokenManager → TokenManager) (schedule : Schedule) :
    ∃ after, turn me (id.alterAndWake f) schedule = (after, .finished ()) ∧
      passed me (id.alterAndWake f) schedule = [after.world] ∧
      after.world = schedule.world.alterManager id (fun _ => f (schedule.world.manager id)) ∧
      after.tasks = schedule.tasks ∧
      ∀ task, (f (schedule.world.manager id)).admitted? = some task →
        (schedule.world.manager id).admitted? ≠ some task → task ∈ after.ready := by
  let before := schedule.world.manager id
  let altered : Schedule := { schedule with
    world := schedule.world.alterManager id fun _ => f before }
  let notification : Activity Unit :=
    if (f before).admitted? ≠ before.admitted? then Activity.notify (f before).admitted?
    else pure ()
  have hturn : turn me (id.alterAndWake f) schedule = turn me notification altered := rfl
  have hpassed : passed me (id.alterAndWake f) schedule =
      altered.world :: passed me notification altered := rfl
  rw [hturn, hpassed]
  by_cases hchanged : (f before).admitted? = before.admitted?
  · have hnone : notification = pure () := if_neg (not_not_intro hchanged)
    rw [hnone]
    exact ⟨altered, rfl, rfl, rfl, rfl, fun task htask hne => absurd (hchanged ▸ htask) hne⟩
  · have hnotify : notification = Activity.notify (f before).admitted? := if_pos hchanged
    rw [hnotify]
    cases hadmitted : (f before).admitted? with
    | none => exact ⟨altered, rfl, rfl, rfl, rfl, by simp⟩
    | some task =>
      have hworld := wake_world altered task
      refine ⟨altered.wake task, rfl, ?_, hworld, wake_tasks altered task, ?_⟩
      · rw [hworld]
        rfl
      · rintro _ ⟨⟩ -
        exact mem_ready_wake.mpr (.inr rfl)

/-- A task goes away from the gate in a single turn. -/
theorem turn_abandon_finished (me : TaskId) (id : ManagerId) (schedule : Schedule) :
    ∃ after, turn me id.abandon schedule = (after, .finished ()) := by
  obtain ⟨left, hleft, -⟩ := alterAndWake_cases me id (·.abandon me) schedule
  have hturn : turn me id.abandon schedule = turn me id.stopUnlessInUse left :=
    turn_bind_of_finished hleft fun _ => id.stopUnlessInUse
  rw [hturn]
  obtain ⟨h, -⟩ | ⟨h, -⟩ := stopUnlessInUse_cases me id left
  · exact ⟨_, h⟩
  · exact ⟨_, h⟩

/-- What comes of a task that breaks off: it goes away from the gate, and whoever it lets in can
run. -/
theorem turn_abandon (me : TaskId) (schedule : Schedule)
    (known : id < schedule.world.managers.length) :
    ∃ after, turn me id.abandon schedule = (after, .finished ()) ∧
      (schedule.world :: passed me id.abandon schedule).IsChain (World.Abandons me id) ∧
      (after.world.manager id).gate = ((schedule.world.manager id).abandon me).gate ∧
      ∀ task, ((schedule.world.manager id).abandon me).admitted? = some task →
        (schedule.world.manager id).admitted? ≠ some task → task ∈ after.ready := by
  obtain ⟨left, hleft, hpassed, hworld, -, hready⟩ :=
    alterAndWake_cases me id (·.abandon me) schedule
  have hturn : turn me id.abandon schedule = turn me id.stopUnlessInUse left :=
    turn_bind_of_finished hleft fun _ => id.stopUnlessInUse
  have hpassed' : passed me id.abandon schedule =
      left.world :: passed me id.stopUnlessInUse left := by
    have hboth := passed_bind_of_finished hleft fun _ => id.stopUnlessInUse
    rwa [hpassed] at hboth
  have habandons : schedule.world.Abandons me id left.world := hworld ▸ .abandon me known
  have hmanager : left.world.manager id = (schedule.world.manager id).abandon me := by
    simp [hworld, World.manager_alterManager, known]
  rw [hturn, hpassed']
  obtain ⟨hstays, hnone, -⟩ | ⟨hgives, hone⟩ := stopUnlessInUse_cases me id left
  · refine ⟨left, hstays, ?_, by rw [hmanager], hready⟩
    rw [hnone]
    exact .cons_cons habandons (.singleton _)
  · refine ⟨left.giveUp id, hgives, ?_, ?_, fun task htask hne => ?_⟩
    · rw [hone]
      exact .cons_cons habandons (.cons_cons (.stopBackground me id _) (.singleton _))
    · rw [giveUp_world, World.manager_alterManager]
      split <;> rw [← hmanager]
      rfl
    · have hadvances := advances_turn me id.stopBackground left
      rw [turn_stopBackground] at hadvances
      exact hadvances.ready task (hready task htask hne)

end Schedule

/-! ## What starts no loop -/

open Activity

/-- To stop background refresh starts no loop. -/
theorem ManagerId.startsNoLoop_stopBackground (id : ManagerId) :
    id.stopBackground.StartsNoLoop := by
  constructor
  · intro me schedule
    rw [Schedule.turn_stopBackground]
    exact .giveUp schedule id
  · intro me schedule rest h
    rw [Schedule.turn_stopBackground] at h
    cases h

/-- To stop a loop that nobody uses starts none. -/
theorem ManagerId.startsNoLoop_stopUnlessInUse (id : ManagerId) :
    id.stopUnlessInUse.StartsNoLoop := by
  constructor
  · intro me schedule
    obtain ⟨h, -⟩ | ⟨h, -⟩ := Schedule.stopUnlessInUse_cases me id schedule <;> rw [h]
    · exact .refl schedule
    · exact .giveUp schedule id
  · intro me schedule rest hrest
    obtain ⟨h, -⟩ | ⟨h, -⟩ := Schedule.stopUnlessInUse_cases me id schedule <;>
      · rw [h] at hrest
        cases hrest

/-- A change that leaves the loops of all managers alone starts none. -/
theorem startsNoLoop_modify {f : World → World}
    (h : ∀ world id, ((f world).manager id).background = (world.manager id).background) :
    (modify f).StartsNoLoop :=
  .intro (fun _ schedule => .of_tasks_eq rfl (h schedule.world)) (by rintro _ _ _ ⟨⟩)

/-- To let go of a manager starts no loop. -/
theorem ManagerId.startsNoLoop_drop (id : ManagerId) : id.drop.StartsNoLoop := by
  have hdrop : (modify fun world => world.drop id).StartsNoLoop :=
    startsNoLoop_modify fun world other => by rw [World.manager_drop]
  exact hdrop.bind fun _ => startsNoLoop_stopUnlessInUse id

/-- To let a manager go that a task has used starts no loop. -/
theorem ManagerId.startsNoLoop_disengage (id : ManagerId) : id.disengage.StartsNoLoop := by
  have hdisengage : (modify fun world => world.disengage id).StartsNoLoop :=
    startsNoLoop_modify fun world other => by rw [World.manager_disengage]
  exact hdisengage.bind fun _ => startsNoLoop_stopUnlessInUse id

/-- Of what callers ask for, only the start of background refresh starts a loop. -/
theorem Operation.startsNoLoop (operation : Operation)
    (h : ∀ id, operation ≠ .startBackground id) : operation.activity.StartsNoLoop := by
  have hmap {α : Type} {activity : Activity α} (f : α → Reply) (first : activity.StartsNoLoop) :
      (f <$> activity).StartsNoLoop :=
    first.bind fun value => .of_stays (stays_pure (f value))
  cases operation with
  | getToken id => exact hmap _ (.of_stays (ManagerId.stays_get id))
  | refreshToken id =>
    exact hmap _ (.of_stays (ManagerId.stays_refreshFor id .renew))
  | askExpired id =>
    exact hmap _ (.of_stays (stays_world.bind fun _ => stays_check _))
  | startBackground id => exact absurd rfl (h id)
  | stopBackground id => exact hmap _ (ManagerId.startsNoLoop_stopBackground id)
  | dropManager id => exact hmap _ (ManagerId.startsNoLoop_drop id)
  | getCredentials cached =>
    have hinner := cached.inner.stays_retrieve cached.inner.isWithin_everything
    exact hmap _ (.of_stays (stays_getCached trivial hinner))
  | expireCredentials cached => exact hmap _ (startsNoLoop_modify fun _ _ => rfl)

/-- A task goes on as a loop or does its job, and starts none. -/
theorem Job.startsNoLoop (job : Job) : job.activity.StartsNoLoop := by
  have hwait (id : ManagerId) : id.backgroundWait.Stays .everything :=
    stays_world.bind fun _ => stays_check _
  have hinUse (id : ManagerId) : id.isInUse.Stays .everything :=
    stays_world.bind fun _ => stays_pure _
  have hrefresh (id : ManagerId) (purpose : Purpose) : (id.refreshFor purpose).Stays .everything :=
    ManagerId.stays_refreshFor id purpose
  cases job with
  | advisory id =>
    have hfollowed : (modify fun world => world.alterManager id TokenManager.adviceFollowed).Stays
        .everything := stays_modify fun _ => .alterManager rfl
    have hfollow : id.followAdvice.StartsNoLoop :=
      (StartsNoLoop.of_stays (hrefresh id _)).bind fun _ => (StartsNoLoop.of_stays hfollowed).bind
        fun _ => ManagerId.startsNoLoop_disengage id
    exact hfollow.bind fun _ => .of_stays (stays_pure none)
  | background id =>
    exact .of_stays ((hwait id).bind fun wait => (stays_pause wait).bind fun _ => stays_pure _)
  | round id =>
    have hagain : id.awaitRound.Stays .everything := by
      refine (hwait id).bind fun wait => ?_
      split
      · exact Stays.bind (fun _ _ => trivial) fun _ => stays_pure _
      · exact (stays_pause wait).bind fun _ => stays_pure _
    have hround : id.backgroundRound.Stays .everything := by
      refine (hinUse id).bind fun inUse => ?_
      split
      · exact stays_pure none
      · refine (hrefresh id .renew).bind fun _ => (hinUse id).bind fun inUse => ?_
        split
        · exact stays_pure none
        · exact hagain
    exact .of_stays hround

/-- What is left to do when a task breaks off starts no loop. -/
theorem Job.startsNoLoop_cleanUp (job : Job) : job.cleanUp.StartsNoLoop := by
  have habandon (id : ManagerId) : id.abandon.StartsNoLoop := by
    have hleave (task : TaskId) : (id.alterAndWake (·.abandon task)).StartsNoLoop :=
      .of_stays (ManagerId.stays_alterAndWake id fun manager => manager.background_abandon task)
    have hme : Activity.me.StartsNoLoop := .of_stays stays_me
    exact hme.bind fun task => (hleave task).bind fun _ => ManagerId.startsNoLoop_stopUnlessInUse id
  cases job with
  | advisory id => exact (habandon id).bind fun _ => ManagerId.startsNoLoop_disengage id
  | background id => exact habandon id
  | round id => exact habandon id

/-- Steps that each start no loop start none one after another. -/
theorem startsNoLoop_forM {α : Type} {step : α → Activity Unit} {items : List α}
    (h : ∀ item ∈ items, (step item).StartsNoLoop) : (items.forM step).StartsNoLoop := by
  induction items with
  | nil => exact .of_stays (stays_pure ())
  | cons item rest ih =>
    exact (h item List.mem_cons_self).bind fun _ =>
      ih fun other hother => h other (List.mem_cons_of_mem _ hother)

/-- A caller that is dropped starts no loop. -/
theorem startsNoLoop_release (managers caches : Nat) :
    (release managers caches).StartsNoLoop := by
  have hme : Activity.me.StartsNoLoop := .of_stays stays_me
  refine hme.bind fun me => StartsNoLoop.bind (startsNoLoop_forM fun id _ => ?_) fun _ =>
    startsNoLoop_forM fun id _ => ?_
  · exact .of_stays (ManagerId.stays_alterAndWake id fun manager => manager.background_abandon me)
  · exact .of_stays (stays_alterCacheAndWake trivial _)

end CloudSession
