import CloudSession.Proofs.Activity.Territory
import CloudSession.Proofs.Interplay.Operation
import CloudSession.Proofs.Schedule.Course

/-!
# Loops of background refresh

Background refresh of a manager is a task that goes on in a loop. The loop is alive until it comes
to its end or is aborted. An activity starts no loop if none of its turns does and a manager that
gives a loop up in it has it aborted.
-/

namespace CloudSession

namespace Schedule

variable {schedule middle after : Schedule} {id : ManagerId} {task : TaskId}

/-- A task is a loop of background refresh of a manager, which may be aborted. -/
def IsLoop (schedule : Schedule) (id : ManagerId) (task : TaskId) : Prop :=
  ∃ loop ∈ schedule.tasks, loop.id = task ∧ loop.job = .background id

/-- A loop of background refresh is alive: it has not come to its end and is not aborted. -/
def IsAlive (schedule : Schedule) (id : ManagerId) (task : TaskId) : Prop :=
  ∃ loop ∈ schedule.tasks, loop.id = task ∧ loop.job = .background id ∧ loop.aborted = false

/-- What one schedule calls alive is alive in the other as far as its tasks are there. -/
theorem IsAlive.of_tasks (alive : after.IsAlive id task)
    (h : ∀ later ∈ after.tasks, later.aborted = false → later.job = .background id →
      ∃ before ∈ schedule.tasks, before.id = later.id ∧ before.job = later.job ∧
        before.aborted = false) : schedule.IsAlive id task := by
  obtain ⟨later, hlater, rfl, hjob, haborted⟩ := alive
  obtain ⟨before, hbefore, hid, hjob', hbefore'⟩ := h later hlater haborted hjob
  exact ⟨before, hbefore, hid, hjob'.trans hjob, hbefore'⟩

/-- No loop is started, and a manager that gives up background refresh has its loop aborted. -/
structure StartsNoLoop (schedule after : Schedule) : Prop where
  alive : ∀ id task, after.IsAlive id task → schedule.IsAlive id task
  background : ∀ id, (after.world.manager id).background = (schedule.world.manager id).background ∨
    (after.world.manager id).background = none ∧
      ∀ task, (schedule.world.manager id).background = some task → ¬ after.IsAlive id task

namespace StartsNoLoop

/-- Two changes that start no loop, one after the other, start none. -/
theorem trans (first : schedule.StartsNoLoop middle) (second : middle.StartsNoLoop after) :
    schedule.StartsNoLoop after where
  alive id task h := first.alive id task (second.alive id task h)
  background id := by
    rcases second.background id with hkept | ⟨hnone, hover⟩
    · rw [hkept]
      exact (first.background id).imp_right fun ⟨hnone, hover⟩ =>
        ⟨hnone, fun task htask halive => hover task htask (second.alive id task halive)⟩
    · rcases first.background id with hkept | ⟨-, hover'⟩
      · exact .inr ⟨hnone, hkept ▸ hover⟩
      · exact .inr ⟨hnone, fun task htask halive =>
          hover' task htask (second.alive id task halive)⟩

/-- A change that leaves background refresh of all managers alone. -/
theorem of_background_eq
    (halive : ∀ id task, after.IsAlive id task → schedule.IsAlive id task)
    (hbackground : ∀ id, (after.world.manager id).background =
      (schedule.world.manager id).background) : schedule.StartsNoLoop after :=
  ⟨halive, fun id => .inl (hbackground id)⟩

/-- A change of what no loop consists of. -/
theorem of_tasks_eq (htasks : after.tasks = schedule.tasks)
    (hbackground : ∀ id, (after.world.manager id).background =
      (schedule.world.manager id).background) : schedule.StartsNoLoop after :=
  of_background_eq (fun _ _ => by unfold IsAlive; rw [htasks]; exact fun h => h) hbackground

/-- No change at all starts no loop. -/
theorem refl (schedule : Schedule) : schedule.StartsNoLoop schedule :=
  of_tasks_eq rfl fun _ => rfl

/-- To wake a task starts no loop. -/
theorem wake (schedule : Schedule) (task : TaskId) :
    schedule.StartsNoLoop (schedule.wake task) :=
  of_tasks_eq (wake_tasks schedule task) fun _ => by rw [wake_world]

/-- The start of a task that is no loop. -/
theorem spawn (schedule : Schedule) {job : Job} (h : ∀ id, job ≠ .background id) :
    schedule.StartsNoLoop (schedule.spawn job) := by
  refine of_background_eq (fun id task alive => alive.of_tasks ?_) fun _ => rfl
  intro later hlater haborted hjob
  rcases List.mem_append.mp hlater with hbefore | hnew
  · exact ⟨later, hbefore, rfl, rfl, haborted⟩
  · rw [List.mem_singleton.mp hnew] at hjob
    exact absurd hjob (h id)

/-- To remove a task starts no loop. -/
theorem remove (schedule : Schedule) (task : TaskId) :
    schedule.StartsNoLoop (schedule.remove task) := by
  refine of_background_eq (fun id other alive => alive.of_tasks ?_) fun _ => rfl
  exact fun later hlater haborted _ =>
    ⟨later, List.mem_of_mem_filter hlater, rfl, rfl, haborted⟩

/-- A task that goes on starts no loop by that. -/
theorem resumeAt (schedule : Schedule) (task : TaskId) (rest : Activity (Option Job)) :
    schedule.StartsNoLoop (schedule.resumeAt task rest) := by
  refine of_background_eq (fun id other alive => alive.of_tasks ?_) fun _ => rfl
  intro later hlater haborted _
  obtain ⟨before, hbefore, rfl⟩ := List.mem_map.mp hlater
  refine ⟨before, hbefore, ?_⟩
  split at haborted
  · next hid => simpa only [if_pos hid] using ⟨trivial, trivial, haborted⟩
  · next hid => simpa only [if_neg hid] using ⟨trivial, trivial, haborted⟩

end StartsNoLoop

/-- A manager gives up background refresh, and its loop is aborted. -/
def giveUp (schedule : Schedule) (id : ManagerId) : Schedule :=
  let stopped :=
    { schedule with world := schedule.world.alterManager id TokenManager.stopBackground }
  match (schedule.world.manager id).background with
  | none => stopped
  | some task => stopped.abort task

/-- To give up a loop stops background refresh in the world, and does nothing else there. -/
theorem giveUp_world (schedule : Schedule) (id : ManagerId) :
    (schedule.giveUp id).world = schedule.world.alterManager id TokenManager.stopBackground := by
  unfold giveUp
  split
  · rfl
  · exact abort_world _ _

/-- Whoever is alive once a task is aborted is another one that was alive before. -/
theorem IsAlive.of_abort {other : TaskId} (alive : (schedule.abort other).IsAlive id task) :
    schedule.IsAlive id task ∧ task ≠ other := by
  unfold abort at alive
  split at alive
  · obtain ⟨later, hlater, rfl, hjob, haborted⟩ := alive
    rw [wake_tasks] at hlater
    obtain ⟨before, hbefore, rfl⟩ := List.mem_map.mp hlater
    split at haborted
    · cases haborted
    · next hne =>
      rw [if_neg hne] at hjob ⊢
      exact ⟨⟨before, hbefore, rfl, hjob, haborted⟩, hne⟩
  · next hnone =>
    refine ⟨alive, ?_⟩
    rintro rfl
    obtain ⟨later, hlater, hid, -⟩ := alive
    exact hnone (List.any_eq_true.mpr ⟨later, hlater, by simpa using hid⟩)

/-- To give up a loop starts none. -/
theorem StartsNoLoop.giveUp (schedule : Schedule) (id : ManagerId) :
    schedule.StartsNoLoop (schedule.giveUp id) := by
  have halive (other : ManagerId) (task : TaskId)
      (alive : (schedule.giveUp id).IsAlive other task) :
      schedule.IsAlive other task ∧ (schedule.world.manager id).background ≠ some task := by
    unfold Schedule.giveUp at alive
    split at alive
    · next hnone => exact ⟨alive, by simp [hnone]⟩
    · next loop hloop =>
      obtain ⟨hbefore, hne⟩ := alive.of_abort
      exact ⟨hbefore, by simpa [hloop] using Ne.symm hne⟩
  refine ⟨fun other task alive => (halive other task alive).1, fun other => ?_⟩
  rw [giveUp_world, World.manager_alterManager]
  split
  · next hid =>
    obtain ⟨rfl, -⟩ := hid
    exact .inr ⟨rfl, fun task htask alive => (halive id task alive).2 htask⟩
  · exact .inl rfl

end Schedule

/-! ## Activities -/

namespace Activity

variable {α β : Type}

/-- No turn of the activity starts a loop, neither the first nor those that come after. -/
inductive StartsNoLoop : Activity α → Prop
  | intro {activity : Activity α} :
      (∀ me schedule, Schedule.StartsNoLoop schedule (Schedule.turn me activity schedule).1) →
      (∀ me schedule rest, (Schedule.turn me activity schedule).2 = .waiting rest →
        StartsNoLoop rest) → StartsNoLoop activity

/-- The turn of an activity that starts no loop starts none. -/
theorem StartsNoLoop.turn {activity : Activity α} (h : activity.StartsNoLoop) (me : TaskId)
    (schedule : Schedule) : schedule.StartsNoLoop (Schedule.turn me activity schedule).1 := by
  cases h with
  | intro hturn _ => exact hturn me schedule

/-- What is left of an activity after a turn starts no loop, either. -/
theorem StartsNoLoop.waiting {activity rest : Activity α} (h : activity.StartsNoLoop)
    {me : TaskId} {schedule : Schedule}
    (hwaiting : (Schedule.turn me activity schedule).2 = .waiting rest) : rest.StartsNoLoop := by
  cases h with
  | intro _ hrest => exact hrest me schedule rest hwaiting

/-- One activity after another starts no loop if neither does. -/
theorem StartsNoLoop.bind {activity : Activity α} {f : α → Activity β}
    (first : activity.StartsNoLoop) (second : ∀ value, (f value).StartsNoLoop) :
    (activity >>= f).StartsNoLoop := by
  induction first with
  | @intro activity hturn _ ih =>
    constructor
    · intro me schedule
      have hfirst := hturn me schedule
      rw [Schedule.turn_bind]
      split
      · next next value heq =>
        rw [heq] at hfirst
        exact hfirst.trans ((second value).turn me next)
      · next heq => rwa [heq] at hfirst
      · next heq => rwa [heq] at hfirst
    · intro me schedule rest hwaiting
      rw [Schedule.turn_bind] at hwaiting
      split at hwaiting
      · next next value heq => exact (second value).waiting hwaiting
      · cases hwaiting
      · next next between heq =>
        obtain rfl := Turn.waiting.inj hwaiting
        exact ih me schedule between (by rw [heq])

/-- A turn from where an activity leaves background refresh to others, and what is left after it. -/
private theorem StaysFrom.startsNoLoop {activity : Activity α} {schedule : Schedule} {me : TaskId}
    (stays : activity.StaysFrom .everything schedule.world) :
    schedule.StartsNoLoop (Schedule.turn me activity schedule).1 ∧
      ∀ rest, (Schedule.turn me activity schedule).2 = .waiting rest → rest.StartsNoLoop := by
  have hlater {next : Activity α} (ih : ∀ {schedule : Schedule} {me : TaskId},
      next.StaysFrom .everything schedule.world →
        schedule.StartsNoLoop (Schedule.turn me next schedule).1 ∧
          ∀ rest, (Schedule.turn me next schedule).2 = .waiting rest → rest.StartsNoLoop)
      (h : ∀ later, next.StaysFrom .everything later) : next.StartsNoLoop :=
    .intro (fun _ later => (ih (h later.world)).1) fun _ later => (ih (h later.world)).2
  induction activity generalizing schedule me with
  | done => exact ⟨.refl _, by simp [Schedule.turn]⟩
  | fail => exact ⟨.refl _, by simp [Schedule.turn]⟩
  | read next ih => exact ih _ stays
  | clock next ih => exact ih _ (stays _ _)
  | write world next ih =>
    have hwritten : schedule.StartsNoLoop { schedule with world } :=
      .of_tasks_eq rfl stays.1.background
    have hnext := @ih { schedule with world } me (stays.2 world)
    exact ⟨hwritten.trans hnext.1, hnext.2⟩
  | self next ih => exact ih me (stays me)
  | park next ih =>
    refine ⟨.refl _, ?_⟩
    rintro rest ⟨⟩
    exact hlater ih stays
  | pass next ih =>
    refine ⟨.wake _ _, ?_⟩
    rintro rest ⟨⟩
    exact hlater ih stays
  | sleep span next ih =>
    by_cases hspan : span = Span.zero
    · simpa only [Schedule.turn, if_pos hspan] using ih (stays schedule.world)
    · simp only [Schedule.turn, if_neg hspan]
      refine ⟨.of_tasks_eq rfl fun _ => rfl, ?_⟩
      rintro rest ⟨⟩
      exact hlater ih stays
  | wake task next ih =>
    have hworld := Schedule.wake_world schedule task
    have hnext := @ih (schedule.wake task) me (hworld ▸ stays)
    exact ⟨(Schedule.StartsNoLoop.wake schedule task).trans hnext.1, hnext.2⟩
  | spawn job next ih =>
    obtain ⟨⟨manager, rfl⟩, hrest⟩ := stays
    have hspawned : schedule.StartsNoLoop (schedule.spawn (.advisory manager)) :=
      .spawn schedule (by simp)
    have hnext := @ih schedule.fresh (schedule.spawn (.advisory manager)) me (hrest _ _)
    exact ⟨hspawned.trans hnext.1, hnext.2⟩
  | abort => exact stays.elim

/-- An activity that leaves background refresh to others starts no loop. -/
theorem StartsNoLoop.of_stays {activity : Activity α} (stays : activity.Stays .everything) :
    activity.StartsNoLoop :=
  .intro (fun _ schedule => (stays schedule.world).startsNoLoop.1)
    fun _ schedule => (stays schedule.world).startsNoLoop.2

end Activity

end CloudSession
