import CloudSession.Proofs.Background.Turns

/-!
# Tended schedules

A schedule is `Tended` if every loop that is alive is the one that its manager knows of, no task
will start a loop by itself, and every task that is aborted can run. The turns of tasks keep it so.
-/

namespace CloudSession.Schedule

variable {schedule after : Schedule} {acting : Option TaskId} {id : TaskId} {task : Task}

/-- What holds of the tasks of a schedule, while `acting` has its turn, or none. -/
structure Tended (schedule : Schedule) (acting : Option TaskId) : Prop where
  tracked : ∀ id task, schedule.IsAlive id task →
    (schedule.world.manager id).background = some task
  rests : ∀ task ∈ schedule.tasks, task.rest.StartsNoLoop
  urgent : ∀ task ∈ schedule.tasks, task.aborted = true → acting ≠ some task.id →
    task.id ∈ schedule.ready

/-- A loop that is alive stays the one that its manager knows of. -/
theorem StartsNoLoop.tracked (starts : schedule.StartsNoLoop after)
    (h : ∀ id task, schedule.IsAlive id task →
      (schedule.world.manager id).background = some task) (id : ManagerId) (task : TaskId)
    (alive : after.IsAlive id task) : (after.world.manager id).background = some task := by
  have hbefore := h id task (starts.alive id task alive)
  rcases starts.background id with hkept | ⟨-, hover⟩
  · rw [hkept, hbefore]
  · exact absurd alive (hover task hbefore)

namespace Tended

/-- What advances a tended schedule tends it, as long as managers know of the loops that are
alive. -/
theorem advance (tended : schedule.Tended acting) (advances : schedule.Advances after)
    (tracked : ∀ id task, after.IsAlive id task →
      (after.world.manager id).background = some task) : after.Tended acting where
  tracked := tracked
  rests later hlater := by
    rcases advances.origin later hlater with ⟨before, hbefore, hbecomes⟩ | ⟨-, hrest⟩
    · exact hbecomes.rest_eq ▸ tended.rests before hbefore
    · exact hrest ▸ later.job.startsNoLoop
  urgent later hlater haborted hother := by
    rcases advances.urgent later hlater haborted with hbefore | hready
    · exact advances.ready _ (tended.urgent later hbefore haborted hother)
    · exact hready

/-- The turn of an activity that starts no loop keeps a schedule tended. -/
theorem turn {α : Type} {activity : Activity α} (tended : schedule.Tended acting)
    (starts : activity.StartsNoLoop) (me : TaskId) :
    (Schedule.turn me activity schedule).1.Tended acting :=
  tended.advance (advances_turn me activity schedule)
    ((starts.turn me schedule).tracked tended.tracked)

/-- What is asked while a task has its turn is asked of fewer tasks. -/
theorem excuse (tended : schedule.Tended none) (acting : Option TaskId) :
    schedule.Tended acting :=
  { tended with urgent := fun task htask haborted _ => tended.urgent task htask haborted (by simp) }

/-- A task that has its turn need no longer be ready. -/
theorem resume (tended : schedule.Tended none) (id : TaskId) :
    (schedule.resume id).Tended (some id) where
  tracked := tended.tracked
  rests := tended.rests
  urgent task htask haborted hother := by
    have hne : task.id ≠ id := fun h => hother (by rw [h])
    exact List.mem_filter.mpr ⟨tended.urgent task htask haborted (by simp), by simpa using hne⟩

/-- A task that is not aborted may have its turn. -/
theorem resume_of_not_aborted (tended : schedule.Tended none)
    (h : ∀ task ∈ schedule.tasks, task.id = id → task.aborted = false) :
    (schedule.resume id).Tended none :=
  { tended.resume id with
    urgent := fun task htask haborted _ => by
      refine (tended.resume id).urgent task htask haborted fun heq => ?_
      have hid : id = task.id := Option.some.inj heq
      rw [h task htask hid.symm] at haborted
      cases haborted }

/-- To remove the task that has its turn keeps the schedule tended. -/
theorem remove (tended : schedule.Tended (some id)) : (schedule.remove id).Tended none where
  tracked := (StartsNoLoop.remove schedule id).tracked tended.tracked
  rests task htask := tended.rests task (List.mem_of_mem_filter htask)
  urgent task htask haborted _ := by
    obtain ⟨hbefore, hne⟩ := List.mem_filter.mp htask
    refine List.mem_filter.mpr ⟨tended.urgent task hbefore haborted ?_, hne⟩
    simpa using Ne.symm (of_decide_eq_true hne)

/-- A task may go on with what starts no loop. -/
theorem resumeAt (tended : schedule.Tended none) (id : TaskId) {rest : Activity (Option Job)}
    (starts : rest.StartsNoLoop) : (schedule.resumeAt id rest).Tended none where
  tracked := (StartsNoLoop.resumeAt schedule id rest).tracked tended.tracked
  rests task htask := by
    obtain ⟨before, hbefore, rfl⟩ := List.mem_map.mp htask
    split
    · exact starts
    · exact tended.rests before hbefore
  urgent task htask haborted _ := by
    obtain ⟨before, hbefore, rfl⟩ := List.mem_map.mp htask
    split at haborted
    · next hid =>
      rw [if_pos hid]
      exact tended.urgent before hbefore haborted (by simp)
    · next hid =>
      rw [if_neg hid]
      exact tended.urgent before hbefore haborted (by simp)

/-- A task that breaks off leaves a tended schedule behind. -/
theorem breakOff (tended : schedule.Tended (some task.id)) : (schedule.breakOff task).Tended none :=
  (tended.turn task.job.startsNoLoop_cleanUp task.id).remove

end Tended

/-- A task that breaks off starts no loop. -/
theorem startsNoLoop_breakOff (schedule : Schedule) (task : Task) :
    schedule.StartsNoLoop (schedule.breakOff task) :=
  (task.job.startsNoLoop_cleanUp.turn task.id schedule).trans (.remove _ task.id)

/-- The turn of a task starts no loop. -/
theorem startsNoLoop_turnOfTask (schedule : Schedule) (h : task.rest.StartsNoLoop) :
    schedule.StartsNoLoop (schedule.turnOfTask task) := by
  have hturn := h.turn task.id schedule
  unfold turnOfTask
  split
  · exact startsNoLoop_breakOff schedule task
  · rcases heq : Schedule.turn task.id task.rest schedule with ⟨next, ending⟩
    rw [heq] at hturn
    match ending with
    | .waiting rest => exact hturn.trans (.resumeAt next task.id rest)
    | .failed _ => exact hturn.trans (startsNoLoop_breakOff next task)
    | .finished none => exact hturn.trans (.remove next task.id)
    | .finished (some job) =>
      have hcontinued := StartsNoLoop.resumeAt next task.id job.activity
      exact hturn.trans ⟨hcontinued.alive, hcontinued.background⟩

/-- The turn of a task that can run. -/
theorem Tended.turnOfTask (tended : schedule.Tended none)
    (distinct : (schedule.tasks.map Task.id).Nodup) (htask : task ∈ schedule.tasks) :
    ((schedule.resume task.id).turnOfTask task).Tended none := by
  unfold Schedule.turnOfTask
  split
  · exact (tended.resume task.id).breakOff
  · next haborted =>
    have hresumed : (schedule.resume task.id).Tended none :=
      tended.resume_of_not_aborted fun other hother hid => by
        rw [List.inj_on_of_nodup_map distinct hother htask hid]
        simpa using haborted
    have hturn := hresumed.turn (tended.rests task htask) task.id
    have hwaiting : ∀ rest, (Schedule.turn task.id task.rest (schedule.resume task.id)).2 =
        .waiting rest → rest.StartsNoLoop := fun _ h => (tended.rests task htask).waiting h
    rcases heq : Schedule.turn task.id task.rest (schedule.resume task.id) with ⟨next, ending⟩
    rw [heq] at hturn hwaiting
    match ending with
    | .waiting rest => exact hturn.resumeAt task.id (hwaiting rest rfl)
    | .failed _ => exact (hturn.excuse _).breakOff
    | .finished none => exact (hturn.excuse _).remove
    | .finished (some job) =>
      have hcontinued := hturn.resumeAt task.id job.startsNoLoop
      exact { hcontinued with
        urgent := fun other hother h hne =>
          List.mem_cons_of_mem _ (hcontinued.urgent other hother h hne) }

/-! ## What else happens to a schedule -/

/-- When time passes, the tasks are left alone, except that some can run. -/
theorem elapse_keeps (schedule : Schedule) (elapsed : Span) :
    (schedule.elapse elapsed).tasks = schedule.tasks ∧
      (schedule.elapse elapsed).fresh = schedule.fresh ∧
      ∀ id ∈ schedule.ready, id ∈ (schedule.elapse elapsed).ready := by
  have hfold (timers : List Timer) (schedule : Schedule) :
      let woken := timers.foldl (fun schedule timer => schedule.wake timer.task) schedule
      woken.tasks = schedule.tasks ∧ woken.fresh = schedule.fresh ∧
        ∀ id ∈ schedule.ready, id ∈ woken.ready := by
    induction timers generalizing schedule with
    | nil => exact ⟨rfl, rfl, fun _ h => h⟩
    | cons timer rest ih =>
      obtain ⟨htasks, hfresh, hready⟩ := ih (schedule.wake timer.task)
      exact ⟨htasks.trans (wake_tasks _ _), hfresh.trans (wake_fresh _ _),
        fun id hid => hready id (mem_ready_wake.mpr (.inl hid))⟩
  exact hfold _ _

/-- Time that passes starts no loop. -/
theorem startsNoLoop_elapse (schedule : Schedule) (elapsed : Span) :
    schedule.StartsNoLoop (schedule.elapse elapsed) :=
  .of_tasks_eq (elapse_keeps schedule elapsed).1 fun _ => by rw [elapse_world]; rfl

/-- Time that passes keeps a schedule tended. -/
theorem Tended.elapse (tended : schedule.Tended none) (elapsed : Span) :
    (schedule.elapse elapsed).Tended none := by
  obtain ⟨htasks, hfresh, hready⟩ := elapse_keeps schedule elapsed
  exact tended.advance (advances_of_tasks_eq hfresh htasks hready)
    ((startsNoLoop_elapse schedule elapsed).tracked tended.tracked)

/-- The start of background refresh starts a loop that its manager knows of. -/
theorem Tended.turn_startBackground {manager : ManagerId} (tended : schedule.Tended acting)
    (known : manager < schedule.world.managers.length) (me : TaskId) :
    (Schedule.turn me manager.startBackground schedule).1.Tended acting := by
  have hadvances := advances_turn me manager.startBackground schedule
  obtain ⟨after, hturn, ⟨h, rfl⟩ | ⟨world, hmanagers, rfl⟩⟩ :=
    turn_startBackground_cases me manager schedule
  · rw [hturn] at hadvances ⊢
    refine tended.advance hadvances ?_
    rintro id _ ⟨loop, hloop, rfl, hjob, haborted⟩
    rw [World.manager_alterManager]
    rcases List.mem_append.mp hloop with hbefore | hnew
    · have htracked := tended.tracked id loop.id ⟨loop, hbefore, rfl, hjob, haborted⟩
      rw [if_neg, htracked]
      rintro ⟨rfl, -⟩
      rw [htracked] at h
      cases h
    · rw [List.mem_singleton.mp hnew] at hjob ⊢
      obtain rfl := Job.background.inj hjob
      rw [if_pos ⟨rfl, known⟩]
      rfl
  · rw [hturn] at hadvances ⊢
    have haside : schedule.StartsNoLoop { schedule with world } :=
      .of_tasks_eq rfl fun id => by rw [World.manager, World.managed, hmanagers]; rfl
    exact tended.advance hadvances (haside.tracked tended.tracked)

end CloudSession.Schedule
