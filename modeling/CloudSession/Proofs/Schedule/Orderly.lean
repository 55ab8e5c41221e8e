import CloudSession.Proofs.TokenManager.Tasks
import CloudSession.Schedule

/-!
# Orderly schedules

A schedule is `Orderly` if its world is sound, tasks that have not been started are nowhere yet, and
a task that waits at a gate does not get a turn unless it is aborted. It is `Resumable` if every
task behaves once it has its next turn. Both are kept by everything that happens to a schedule.
-/

namespace CloudSession

/-- A task that waits behaves once it has its next turn. -/
def Task.Resumes (task : Task) (world : World) : Prop :=
  ∃ history : History, history.now = world ∧
    task.rest.Resumes (task.job.call task.id) (task.job.Over task.id) history

/-- What happens elsewhere does not keep a task from behaving. -/
theorem Task.Resumes.elsewhere {task : Task} {world after : World} (h : task.Resumes world)
    (elsewhere : world.Elsewhere task.id after) : task.Resumes after := by
  obtain ⟨history, rfl, hrest⟩ := h
  exact ⟨history.after after, rfl, hrest.grows (.step (.refl history) elsewhere)⟩

namespace Schedule

variable {schedule : Schedule} {world : World} {me : RefreshCall} {acting : Option TaskId}
  {id : TaskId} {job : Job}

/-- Whether a task can run or sleeps. -/
def IsWoken (schedule : Schedule) (id : TaskId) : Prop :=
  id ∈ schedule.ready ∨ ∃ timer ∈ schedule.timers, timer.task = id

/-- Whether a task is aborted. -/
def IsAborted (schedule : Schedule) (id : TaskId) : Prop :=
  ∃ task ∈ schedule.tasks, task.id = id ∧ task.aborted = true

/-- What holds of a schedule while the task `acting` has its turn, or none. -/
structure Orderly (schedule : Schedule) (acting : Option TaskId) : Prop where
  sound : schedule.world.Sound
  unborn : ∀ task, schedule.fresh ≤ task → ¬ schedule.world.IsCaller task
  distinct : (schedule.tasks.map Task.id).Nodup
  born : ∀ task ∈ schedule.tasks, task.id < schedule.fresh
  known : ∀ task ∈ schedule.tasks, task.job.manager < schedule.world.managers.length
  old : ∀ id, schedule.IsWoken id → id < schedule.fresh
  woken : ∀ id, schedule.IsWoken id →
    acting ≠ some id ∧ ¬ schedule.world.IsWaiting id ∨ schedule.IsAborted id

/-- Every task but the acting one behaves once it has its next turn. -/
def Resumable (schedule : Schedule) (acting : Option TaskId) : Prop :=
  ∀ task ∈ schedule.tasks, acting ≠ some task.id → task.Resumes schedule.world

/-- The turn of a task is over. -/
theorem Orderly.afterTurn (orderly : schedule.Orderly acting) : schedule.Orderly none where
  sound := orderly.sound
  unborn := orderly.unborn
  distinct := orderly.distinct
  born := orderly.born
  known := orderly.known
  old := orderly.old
  woken id hwoken := (orderly.woken id hwoken).imp_left fun h => ⟨by simp, h.2⟩

/-- Once a task is woken, it is ready, and so are those that were. -/
theorem mem_ready_wake {task : TaskId} :
    id ∈ (schedule.wake task).ready ↔ id ∈ schedule.ready ∨ id = task := by
  unfold wake
  split
  · next h =>
    have hmem : task ∈ schedule.ready := by simpa using h
    exact ⟨.inl, fun hor => hor.elim (fun h => h) fun heq => heq ▸ hmem⟩
  · simp

/-- To wake a task leaves the timers alone. -/
theorem wake_timers (schedule : Schedule) (task : TaskId) :
    (schedule.wake task).timers = schedule.timers := by
  unfold wake
  split <;> rfl

/-- To wake a task leaves the tasks alone. -/
theorem wake_tasks (schedule : Schedule) (task : TaskId) :
    (schedule.wake task).tasks = schedule.tasks := by
  unfold wake
  split <;> rfl

/-- To wake a task leaves the world alone. -/
theorem wake_world (schedule : Schedule) (task : TaskId) :
    (schedule.wake task).world = schedule.world := by
  unfold wake
  split <;> rfl

/-- To wake a task leaves the next name alone. -/
theorem wake_fresh (schedule : Schedule) (task : TaskId) :
    (schedule.wake task).fresh = schedule.fresh := by
  unfold wake
  split <;> rfl

/-- Once a task is woken, it is among those that are woken. -/
theorem isWoken_wake {task : TaskId} :
    (schedule.wake task).IsWoken id ↔ schedule.IsWoken id ∨ id = task := by
  unfold IsWoken
  rw [wake_timers, mem_ready_wake]
  exact or_right_comm

/-- Which tasks can run or sleep may change: those that did not before wait at no gate or are
aborted. -/
theorem Orderly.alterWoken (orderly : schedule.Orderly acting) {ready : List TaskId}
    {timers : List Timer}
    (hwoken : ∀ id, ({ schedule with ready, timers } : Schedule).IsWoken id →
      schedule.IsWoken id ∨ id < schedule.fresh ∧
        (acting ≠ some id ∧ ¬ schedule.world.IsWaiting id ∨ schedule.IsAborted id)) :
    ({ schedule with ready, timers } : Schedule).Orderly acting where
  sound := orderly.sound
  unborn := orderly.unborn
  distinct := orderly.distinct
  born := orderly.born
  known := orderly.known
  old id h := by
    rcases hwoken id h with hbefore | ⟨hold, -⟩
    · exact orderly.old id hbefore
    · exact hold
  woken id h := by
    rcases hwoken id h with hbefore | ⟨-, hfree⟩
    · exact orderly.woken id hbefore
    · exact hfree

/-- A task is woken that waits at no gate or is aborted. -/
theorem Orderly.wake (orderly : schedule.Orderly acting) (hold : id < schedule.fresh)
    (hfree : acting ≠ some id ∧ ¬ schedule.world.IsWaiting id ∨ schedule.IsAborted id) :
    (schedule.wake id).Orderly acting := by
  have heq : { schedule with ready := (schedule.wake id).ready } = schedule.wake id := by
    unfold Schedule.wake
    split <;> rfl
  rw [← heq]
  refine orderly.alterWoken fun other hwoken => ?_
  rw [heq] at hwoken
  rcases isWoken_wake.mp hwoken with hbefore | rfl
  · exact .inl hbefore
  · exact .inr ⟨hold, hfree⟩

/-- To wake a task leaves the others resumable. -/
theorem Resumable.wake (resumable : schedule.Resumable acting) (id : TaskId) :
    (schedule.wake id).Resumable acting := by
  unfold Resumable
  rw [wake_tasks, wake_world]
  exact resumable

/-- A task that waits at no gate may go to sleep. -/
theorem Orderly.sleep (orderly : schedule.Orderly none) (hold : id < schedule.fresh)
    (hfree : ¬ schedule.world.IsWaiting id) (due : Span) :
    ({ schedule with timers := schedule.timers ++ [{ due, task := id }] } : Schedule).Orderly
      none := by
  refine orderly.alterWoken fun other hwoken => ?_
  rcases hwoken with hready | ⟨timer, htimer, rfl⟩
  · exact .inl (.inl hready)
  · rcases List.mem_append.mp htimer with hbefore | hnew
    · exact .inl (.inr ⟨timer, hbefore, rfl⟩)
    · rw [List.mem_singleton.mp hnew]
      exact .inr ⟨hold, .inl ⟨by simp, hfree⟩⟩

/-- A task that waits at no gate may have the next turn. -/
theorem Orderly.goOn (orderly : schedule.Orderly none) (hold : id < schedule.fresh)
    (hfree : ¬ schedule.world.IsWaiting id) :
    ({ schedule with ready := id :: schedule.ready } : Schedule).Orderly none := by
  refine orderly.alterWoken fun other hwoken => ?_
  rcases hwoken with hready | hsleeps
  · rcases List.mem_cons.mp hready with rfl | hbefore
    · exact .inr ⟨hold, .inl ⟨by simp, hfree⟩⟩
    · exact .inl (.inl hbefore)
  · exact .inl (.inr hsleeps)

/-- A deed of the acting task keeps order. -/
theorem Orderly.write (orderly : schedule.Orderly (some me.task)) (hold : me.task < schedule.fresh)
    (deed : schedule.world.Deed me world) :
    ({ schedule with world } : Schedule).Orderly (some me.task) where
  sound := deed.sound orderly.sound
  unborn task htask hcaller := by
    have hne : task ≠ me.task := fun heq => absurd (heq ▸ hold) (Nat.not_lt_of_le htask)
    exact orderly.unborn task htask (deed.isCaller hne hcaller)
  distinct := orderly.distinct
  born := orderly.born
  known task htask := by
    rw [deed.managerCount]
    exact orderly.known task htask
  old := orderly.old
  woken id hwoken := by
    refine (orderly.woken id hwoken).imp_left fun ⟨hne, hfree⟩ => ⟨hne, ?_⟩
    have hother : id ≠ me.task := fun heq => hne (by rw [heq])
    rintro ⟨place, hplace⟩
    exact hfree ⟨place, deed.mem_queueAt hother hplace⟩

/-- A deed of the task that has its turn leaves the others resumable. -/
theorem Resumable.write (resumable : schedule.Resumable (some me.task))
    (deed : schedule.world.Deed me world) :
    ({ schedule with world } : Schedule).Resumable (some me.task) := by
  intro task htask hne
  have hother : me.task ≠ task.id := fun heq => hne (by rw [heq])
  exact (resumable task htask hne).elsewhere (.inl ⟨me, hother, deed⟩)

/-- What happens outside keeps order while no task has its turn. -/
theorem Orderly.outside (orderly : schedule.Orderly none)
    (outside : schedule.world.Outside world) :
    ({ schedule with world } : Schedule).Orderly none where
  sound := outside.sound orderly.sound
  unborn task htask hcaller := orderly.unborn task htask (outside.isCaller hcaller)
  distinct := orderly.distinct
  born := orderly.born
  known task htask := by
    rw [outside.managers]
    exact orderly.known task htask
  old := orderly.old
  woken id hwoken := by
    refine (orderly.woken id hwoken).imp_left fun ⟨hne, hfree⟩ => ⟨hne, ?_⟩
    rintro ⟨place, hplace⟩
    exact hfree ⟨place, outside.queueAt_eq place ▸ hplace⟩

/-- What happens outside leaves all tasks resumable. -/
theorem Resumable.outside (resumable : schedule.Resumable none)
    (outside : schedule.world.Outside world) :
    ({ schedule with world } : Schedule).Resumable none :=
  fun task htask hne => (resumable task htask hne).elsewhere (.inr outside)

/-- A task that has not been started stands away from all gates. -/
theorem Orderly.standing (orderly : schedule.Orderly acting) (hid : schedule.fresh ≤ id) :
    schedule.world.Standing id [] none where
  sound := orderly.sound
  managers manager _ other hother heq :=
    orderly.unborn id hid ⟨.manager manager, List.mem_map.mpr ⟨other, hother, heq⟩⟩
  caches cache _ _ hmem := orderly.unborn id hid ⟨.cache cache, hmem⟩
  inside := by simp

/-- A caller comes, and has its turn. -/
theorem Orderly.admit (orderly : schedule.Orderly none) :
    ({ schedule with fresh := schedule.fresh + 1 } : Schedule).Orderly (some schedule.fresh) where
  sound := orderly.sound
  unborn task htask := orderly.unborn task (Nat.le_of_succ_le htask)
  distinct := orderly.distinct
  born task htask := Nat.lt_succ_of_lt (orderly.born task htask)
  known := orderly.known
  old id hwoken := Nat.lt_succ_of_lt (orderly.old id hwoken)
  woken id hwoken := by
    refine (orderly.woken id hwoken).imp_left fun h => ⟨?_, h.2⟩
    have hold := orderly.old id hwoken
    simpa using Nat.ne_of_gt hold

/-- A task that is started behaves. -/
theorem resumes_activity {history : History} (standing : history.now.Standing id [] none)
    (known : job.manager < history.now.managers.length) :
    job.activity.Resumes (job.call id) (job.Over id) history := by
  intro later grows _
  have hvisit : Visit history.now (job.call id) [] none history := ⟨standing, .refl _⟩
  have hlater := hvisit.grows grows
  exact Job.behaves_activity hlater.standing (hlater.known known)

/-- A task that is started is woken. -/
theorem isWoken_spawn :
    (schedule.spawn job).IsWoken id ↔ schedule.IsWoken id ∨ id = schedule.fresh := by
  simp only [IsWoken, Schedule.spawn, List.mem_append, List.mem_singleton]
  exact or_right_comm

/-- To start a task for a manager keeps a schedule orderly. -/
theorem Orderly.spawn (orderly : schedule.Orderly acting)
    (known : job.manager < schedule.world.managers.length) (hacting : acting ≠ some schedule.fresh) :
    (schedule.spawn job).Orderly acting where
  sound := orderly.sound
  unborn task htask := orderly.unborn task (Nat.le_of_succ_le htask)
  distinct := by
    have hfresh : schedule.fresh ∉ schedule.tasks.map Task.id := by
      intro hmem
      obtain ⟨task, htask, heq⟩ := List.mem_map.mp hmem
      exact absurd (heq ▸ orderly.born task htask) (Nat.lt_irrefl _)
    simp only [Schedule.spawn, List.map_append, List.map_cons, List.map_nil]
    exact List.nodup_append.mpr ⟨orderly.distinct, by simp, by
      rintro a ha b hb rfl
      exact hfresh (List.mem_singleton.mp hb ▸ ha)⟩
  born task htask := by
    rcases List.mem_append.mp htask with hbefore | hnew
    · exact Nat.lt_succ_of_lt (orderly.born task hbefore)
    · rw [List.mem_singleton.mp hnew]
      exact Nat.lt_succ_self _
  known task htask := by
    rcases List.mem_append.mp htask with hbefore | hnew
    · exact orderly.known task hbefore
    · rw [List.mem_singleton.mp hnew]
      exact known
  old id hwoken := by
    rcases isWoken_spawn.mp hwoken with hbefore | rfl
    · exact Nat.lt_succ_of_lt (orderly.old id hbefore)
    · exact Nat.lt_succ_self _
  woken id hwoken := by
    rcases isWoken_spawn.mp hwoken with hbefore | rfl
    · refine (orderly.woken id hbefore).imp_right ?_
      rintro ⟨task, htask, haborted⟩
      exact ⟨task, List.mem_append_left _ htask, haborted⟩
    · exact .inl ⟨hacting, (orderly.standing (Nat.le_refl _)).not_isWaiting⟩

/-- To start a task leaves the others resumable, and it is resumable itself. -/
theorem Resumable.spawn (resumable : schedule.Resumable acting) (orderly : schedule.Orderly acting)
    (known : job.manager < schedule.world.managers.length) :
    (schedule.spawn job).Resumable acting := by
  intro task htask hne
  rcases List.mem_append.mp htask with hbefore | hnew
  · exact resumable task hbefore hne
  · rw [List.mem_singleton.mp hnew]
    exact ⟨⟨schedule.world, []⟩, rfl,
      resumes_activity (orderly.standing (Nat.le_refl _)) known⟩

/-- Order does not depend on what tasks have left to do, and tasks may be aborted. -/
theorem Orderly.alterTasks (orderly : schedule.Orderly acting) {f : Task → Task}
    (hid : ∀ task, (f task).id = task.id) (hjob : ∀ task, (f task).job = task.job)
    (haborted : ∀ task : Task, task.aborted = true → (f task).aborted = true) :
    ({ schedule with tasks := schedule.tasks.map f } : Schedule).Orderly acting where
  sound := orderly.sound
  unborn := orderly.unborn
  distinct := by
    have hids : (schedule.tasks.map f).map Task.id = schedule.tasks.map Task.id := by
      rw [List.map_map]
      exact List.map_congr_left fun task _ => hid task
    rw [hids]
    exact orderly.distinct
  born task htask := by
    obtain ⟨before, hbefore, rfl⟩ := List.mem_map.mp htask
    rw [hid]
    exact orderly.born before hbefore
  known task htask := by
    obtain ⟨before, hbefore, rfl⟩ := List.mem_map.mp htask
    rw [hjob]
    exact orderly.known before hbefore
  old := orderly.old
  woken id hwoken := by
    refine (orderly.woken id hwoken).imp_right ?_
    rintro ⟨task, htask, rfl, h⟩
    exact ⟨f task, List.mem_map_of_mem htask, hid task, haborted task h⟩

/-- A task that is aborted is woken, wherever it waits. -/
theorem Orderly.abort (orderly : schedule.Orderly acting) (id : TaskId) :
    (schedule.abort id).Orderly acting := by
  unfold Schedule.abort
  split
  · next hany =>
    obtain ⟨task, htask, hid⟩ := List.any_eq_true.mp hany
    have heq : task.id = id := of_decide_eq_true hid
    have hmarked := orderly.alterTasks
      (f := fun task => if task.id = id then { task with aborted := true } else task)
      (fun task => by split <;> rfl) (fun task => by split <;> rfl)
      (fun task h => by split <;> simp [h])
    refine hmarked.wake (heq ▸ orderly.born task htask) (.inr ⟨_, List.mem_map_of_mem htask, ?_⟩)
    simp [heq]
  · exact orderly

/-- To abort a task leaves the world alone. -/
theorem abort_world (schedule : Schedule) (id : TaskId) :
    (schedule.abort id).world = schedule.world := by
  unfold Schedule.abort
  split
  · exact wake_world _ id
  · rfl

/-- To abort a task leaves all tasks resumable. -/
theorem Resumable.abort (resumable : schedule.Resumable acting) (id : TaskId) :
    (schedule.abort id).Resumable acting := by
  unfold Schedule.abort
  split
  · refine Resumable.wake ?_ id
    intro task htask hne
    obtain ⟨before, hbefore, rfl⟩ := List.mem_map.mp htask
    split
    · next heq =>
      rw [if_pos heq] at hne
      exact resumable before hbefore hne
    · next heq =>
      rw [if_neg heq] at hne
      exact resumable before hbefore hne
  · exact resumable

/-- A task that gets its turn is no longer woken. -/
theorem isWoken_resume {other : TaskId} :
    (schedule.resume id).IsWoken other ↔ other ≠ id ∧ schedule.IsWoken other := by
  simp only [IsWoken, resume, List.mem_filter, decide_eq_true_eq]
  constructor
  · rintro (⟨hready, hne⟩ | ⟨timer, ⟨htimer, hne⟩, rfl⟩)
    · exact ⟨hne, .inl hready⟩
    · exact ⟨hne, .inr ⟨timer, htimer, rfl⟩⟩
  · rintro ⟨hne, hready | ⟨timer, htimer, rfl⟩⟩
    · exact .inl ⟨hready, hne⟩
    · exact .inr ⟨timer, ⟨htimer, hne⟩, rfl⟩

/-- A task that gets its turn is woken no more. -/
theorem Orderly.resume (orderly : schedule.Orderly none) (id : TaskId) :
    (schedule.resume id).Orderly (some id) where
  sound := orderly.sound
  unborn := orderly.unborn
  distinct := orderly.distinct
  born := orderly.born
  known := orderly.known
  old other hwoken := orderly.old other (isWoken_resume.mp hwoken).2
  woken other hwoken := by
    obtain ⟨hne, hbefore⟩ := isWoken_resume.mp hwoken
    refine (orderly.woken other hbefore).imp_left fun h => ⟨?_, h.2⟩
    simpa using hne.symm

/-- While a task has its turn, the others are resumable. -/
theorem Resumable.resume (resumable : schedule.Resumable none) (id : TaskId) :
    (schedule.resume id).Resumable (some id) :=
  fun task htask _ => resumable task htask (by simp)

/-- A task that is no more does not disturb the others. -/
theorem Orderly.remove (orderly : schedule.Orderly none) (id : TaskId) :
    (schedule.remove id).Orderly none where
  sound := orderly.sound
  unborn := orderly.unborn
  distinct := (List.filter_sublist.map _).nodup orderly.distinct
  born task htask := orderly.born task (List.mem_of_mem_filter htask)
  known task htask := orderly.known task (List.mem_of_mem_filter htask)
  old other hwoken := orderly.old other (isWoken_resume.mp hwoken).2
  woken other hwoken := by
    obtain ⟨hne, hbefore⟩ := isWoken_resume.mp hwoken
    refine (orderly.woken other hbefore).imp_right ?_
    rintro ⟨task, htask, rfl, haborted⟩
    exact ⟨task, List.mem_filter.mpr ⟨htask, by simpa using hne⟩, rfl, haborted⟩

/-- Once the task that has its turn is removed, those that are left are resumable. -/
theorem Resumable.remove (resumable : schedule.Resumable (some id)) :
    (schedule.remove id).Resumable none := by
  intro task htask _
  obtain ⟨hmem, hne⟩ := List.mem_filter.mp htask
  exact resumable task hmem (by simpa using Ne.symm (of_decide_eq_true hne))

/-- To let a task go on with something else keeps a schedule orderly. -/
theorem Orderly.resumeAt (orderly : schedule.Orderly acting) (id : TaskId)
    (rest : Activity (Option Job)) : (schedule.resumeAt id rest).Orderly acting :=
  orderly.alterTasks (fun task => by split <;> rfl) (fun task => by split <;> rfl)
    (fun task h => by split <;> simp [h])

/-- A task that goes on with what it can go on with leaves all tasks resumable. -/
theorem Resumable.resumeAt (resumable : schedule.Resumable (some id)) {rest : Activity (Option Job)}
    (hrest : ∀ task ∈ schedule.tasks, task.id = id →
      ({ task with rest } : Task).Resumes schedule.world) :
    (schedule.resumeAt id rest).Resumable none := by
  intro task htask _
  obtain ⟨before, hbefore, rfl⟩ := List.mem_map.mp htask
  split
  · next heq => exact hrest before hbefore heq
  · next hne => exact resumable before hbefore (by simpa using Ne.symm hne)

/-- Tasks that have slept are woken. -/
private theorem Orderly.wakeAll (orderly : schedule.Orderly none) {timers : List Timer}
    (hold : ∀ timer ∈ timers, timer.task < schedule.fresh)
    (hfree : ∀ timer ∈ timers,
      ¬ schedule.world.IsWaiting timer.task ∨ schedule.IsAborted timer.task) :
    (timers.foldl (fun schedule timer => schedule.wake timer.task) schedule).Orderly none := by
  induction timers generalizing schedule with
  | nil => exact orderly
  | cons timer rest ih =>
    have hfirst : none ≠ some timer.task ∧ ¬ schedule.world.IsWaiting timer.task ∨
        schedule.IsAborted timer.task :=
      (hfree timer List.mem_cons_self).imp_left fun h => ⟨by simp, h⟩
    refine ih (orderly.wake (hold timer List.mem_cons_self) hfirst) ?_ ?_
    · intro other hother
      rw [wake_fresh]
      exact hold other (List.mem_cons_of_mem _ hother)
    · intro other hother
      unfold IsAborted
      rw [wake_world, wake_tasks]
      exact hfree other (List.mem_cons_of_mem _ hother)

/-- Time passes outside. -/
theorem outside_elapse (schedule : Schedule) (elapsed : Span) :
    schedule.world.Outside { schedule.world with elapsed } :=
  ⟨rfl, rfl, rfl, rfl⟩

/-- Time that passes changes the world in nothing else. -/
theorem elapse_world (schedule : Schedule) (elapsed : Span) :
    (schedule.elapse elapsed).world = { schedule.world with elapsed } := by
  have hfold (timers : List Timer) (schedule : Schedule) :
      (timers.foldl (fun schedule timer => schedule.wake timer.task) schedule).world =
        schedule.world := by
    induction timers generalizing schedule with
    | nil => rfl
    | cons timer rest ih => rw [List.foldl_cons, ih, wake_world]
  unfold elapse
  exact hfold _ _

/-- When time passes, only tasks that sleep are woken. -/
theorem Orderly.elapse (orderly : schedule.Orderly none) (elapsed : Span) :
    (schedule.elapse elapsed).Orderly none := by
  have hpassed := orderly.outside (outside_elapse schedule elapsed)
  have hlater : ({ schedule with
      world := { schedule.world with elapsed },
      timers := schedule.timers.filter (elapsed.nanos < ·.due.nanos) } : Schedule).Orderly none := by
    refine hpassed.alterWoken fun id hwoken => .inl ?_
    exact hwoken.imp_right fun ⟨timer, htimer, heq⟩ => ⟨timer, List.mem_of_mem_filter htimer, heq⟩
  refine hlater.wakeAll ?_ ?_
  · intro timer htimer
    exact orderly.old timer.task (.inr ⟨timer, List.mem_of_mem_filter htimer, rfl⟩)
  · intro timer htimer
    exact (hpassed.woken timer.task (.inr ⟨timer, List.mem_of_mem_filter htimer, rfl⟩)).imp_left
      fun h => h.2

/-- Time that passes leaves all tasks resumable. -/
theorem Resumable.elapse (resumable : schedule.Resumable none) (elapsed : Span) :
    (schedule.elapse elapsed).Resumable none := by
  have hfold (timers : List Timer) {schedule : Schedule} (h : schedule.Resumable none) :
      (timers.foldl (fun schedule timer => schedule.wake timer.task) schedule).Resumable none := by
    induction timers generalizing schedule with
    | nil => exact h
    | cons timer rest ih => exact ih (h.wake timer.task)
  unfold Schedule.elapse
  exact hfold _ (resumable.outside (outside_elapse schedule elapsed))

end Schedule

end CloudSession
