import CloudSession.Proofs.Schedule.Orderly
import Mathlib.Data.List.Chain

/-!
# Turns

A turn takes the world through several worlds, one after another (`Schedule.passed`). The turn of a
task that behaves is a sequence of its deeds, keeps order, and ends where the task behaves once it
has its next turn.
-/

namespace CloudSession

/-- The history after the world has gone through several others. -/
def History.follow (history : History) (worlds : List World) : History :=
  worlds.foldl History.after history

/-- After several worlds, the last of them is the present one. -/
theorem History.follow_now (history : History) (worlds : List World) :
    (history.follow worlds).now = worlds.getLastD history.now := by
  induction worlds generalizing history with
  | nil => rfl
  | cons world rest ih =>
    rw [List.getLastD_cons]
    exact ih (history.after world)

/-- The last of two lists is the last of the second, or of the first if there is none. -/
theorem getLastD_append {α : Type} (first more : List α) (default : α) :
    (first ++ more).getLastD default = more.getLastD (first.getLastD default) := by
  simp only [List.getLastD_eq_getLast?, List.getLast?_append]
  cases more.getLast? <;> rfl

/-- A task does deeds one after another. -/
abbrev World.Deeds (me : RefreshCall) (world : World) (worlds : List World) : Prop :=
  (world :: worlds).IsChain fun world after => world.Deed me after

namespace World.Deeds

variable {me : RefreshCall} {world : World} {worlds more : List World}

/-- Deeds one after another are deeds. -/
theorem append (hfirst : World.Deeds me world worlds)
    (hmore : World.Deeds me (worlds.getLastD world) more) :
    World.Deeds me world (worlds ++ more) := by
  induction worlds generalizing world with
  | nil => exact hmore
  | cons next rest ih =>
    obtain ⟨hdeed, hrest⟩ := List.isChain_cons_cons.mp hfirst
    rw [List.getLastD_cons] at hmore
    exact List.isChain_cons_cons.mpr ⟨hdeed, ih hrest hmore⟩

/-- Deeds lead to a world that the first one precedes. -/
theorem precedes (deeds : World.Deeds me world worlds) :
    world.Precedes (worlds.getLastD world) := by
  induction worlds generalizing world with
  | nil => exact .refl world
  | cons next rest ih =>
    obtain ⟨hdeed, hrest⟩ := List.isChain_cons_cons.mp deeds
    rw [List.getLastD_cons]
    exact hdeed.precedes.trans (ih hrest)

end World.Deeds

/-- A task sees the deeds of another one happen elsewhere. -/
theorem History.grows_follow {history : History} {worlds : List World} {me : RefreshCall}
    {task : TaskId} (hne : me.task ≠ task)
    (deeds : World.Deeds me history.now worlds) :
    history.Grows task (history.follow worlds) := by
  induction worlds generalizing history with
  | nil => exact .refl history
  | cons world rest ih =>
    obtain ⟨hdeed, hrest⟩ := List.isChain_cons_cons.mp deeds
    have hfirst : history.Grows task (history.after world) :=
      .step (.refl history) (.inl ⟨me, hne, hdeed⟩)
    exact hfirst.trans (ih hrest)

/-- What holds at the end of a turn. -/
def Turn.Ends {α : Type} (me : RefreshCall) (post : α → History → Prop) : Turn α → History → Prop
  | .finished value, history => post value history
  | .failed _, _ => True
  | .waiting rest, history => rest.Resumes me post history

/-- Which task still acts at the end of a turn: the one whose turn it was, unless it waits. -/
def Turn.acting {α : Type} (me : TaskId) : Turn α → Option TaskId
  | .finished _ => some me
  | .failed _ => some me
  | .waiting _ => none

namespace Schedule

variable {α : Type} {me : RefreshCall} {post : α → History → Prop} {schedule after last : Schedule}

/-- The worlds that a turn goes through after the present one. -/
def passed (me : TaskId) : Activity α → Schedule → List World
  | .done _, _ => []
  | .fail _, _ => []
  | .read next, schedule => passed me (next schedule.world) schedule
  | .clock next, schedule => passed me (next schedule.world.now) schedule
  | .write world next, schedule => world :: passed me next { schedule with world }
  | .self next, schedule => passed me (next me) schedule
  | .park _, _ => []
  | .pass _, _ => []
  | .sleep span next, schedule => if span = Span.zero then passed me next schedule else []
  | .wake task next, schedule => passed me next (schedule.wake task)
  | .spawn job next, schedule => passed me (next schedule.fresh) (schedule.spawn job)
  | .abort task next, schedule => passed me next (schedule.abort task)

/-- Tasks keep their names and jobs, and those that are started have new names. -/
structure Continues (schedule after : Schedule) : Prop where
  fresh : schedule.fresh ≤ after.fresh
  tasks : ∀ task ∈ after.tasks,
    (∃ before ∈ schedule.tasks, before.id = task.id ∧ before.job = task.job) ∨
      schedule.fresh ≤ task.id

/-- A schedule continues with itself. -/
theorem Continues.refl (schedule : Schedule) : schedule.Continues schedule :=
  ⟨Nat.le_refl _, fun task htask => .inl ⟨task, htask, rfl, rfl⟩⟩

/-- What continues a schedule twice continues it. -/
theorem Continues.trans (hafter : schedule.Continues after) (hlast : after.Continues last) :
    schedule.Continues last where
  fresh := Nat.le_trans hafter.fresh hlast.fresh
  tasks task htask := by
    rcases hlast.tasks task htask with ⟨between, hbetween, hid, hjob⟩ | hnew
    · rcases hafter.tasks between hbetween with ⟨before, hbefore, hid', hjob'⟩ | hnew
      · exact .inl ⟨before, hbefore, hid'.trans hid, hjob'.trans hjob⟩
      · exact .inr (hid ▸ hnew)
    · exact .inr (Nat.le_trans hafter.fresh hnew)

/-- To wake a task continues a schedule. -/
theorem continues_wake (schedule : Schedule) (task : TaskId) :
    schedule.Continues (schedule.wake task) where
  fresh := Nat.le_of_eq (wake_fresh schedule task).symm
  tasks other hother := by
    rw [wake_tasks] at hother
    exact .inl ⟨other, hother, rfl, rfl⟩

/-- To start a task continues a schedule. -/
theorem continues_spawn (schedule : Schedule) (job : Job) :
    schedule.Continues (schedule.spawn job) where
  fresh := Nat.le_succ _
  tasks task htask := by
    rcases List.mem_append.mp htask with hbefore | hnew
    · exact .inl ⟨task, hbefore, rfl, rfl⟩
    · rw [List.mem_singleton.mp hnew]
      exact .inr (Nat.le_refl _)

/-- To abort a task continues a schedule. -/
theorem continues_abort (schedule : Schedule) (id : TaskId) :
    schedule.Continues (schedule.abort id) := by
  unfold abort
  split
  · refine ⟨?_, fun task htask => ?_⟩
    · rw [wake_fresh]
    · rw [wake_tasks] at htask
      obtain ⟨before, hbefore, rfl⟩ := List.mem_map.mp htask
      exact .inl ⟨before, hbefore, by split <;> rfl, by split <;> rfl⟩
  · exact .refl schedule

/-- What the turn of a task that behaves comes to. -/
structure Takes (me : RefreshCall) (post : α → History → Prop) (history : History)
    (schedule : Schedule) (worlds : List World) (result : Schedule × Turn α) : Prop where
  deeds : World.Deeds me schedule.world worlds
  now : (history.follow worlds).now = result.1.world
  ends : result.2.Ends me post (history.follow worlds)
  orderly : result.1.Orderly (result.2.acting me.task)
  resumable : result.1.Resumable (some me.task)
  continues : schedule.Continues result.1

/-- The turn of a task that behaves. -/
theorem Orderly.turn {activity : Activity α} {history : History}
    (orderly : schedule.Orderly (some me.task)) (resumable : schedule.Resumable (some me.task))
    (hold : me.task < schedule.fresh) (hnow : history.now = schedule.world)
    (behaves : activity.Behaves me post history) :
    Takes me post history schedule (passed me.task activity schedule)
      (turn me.task activity schedule) := by
  induction activity generalizing schedule history with
  | done value => exact ⟨.singleton _, hnow, behaves, orderly, resumable, .refl _⟩
  | fail fault => exact ⟨.singleton _, hnow, trivial, orderly, resumable, .refl _⟩
  | read next ih =>
    rw [Activity.Behaves, hnow] at behaves
    exact ih _ orderly resumable hold hnow behaves
  | clock next ih =>
    rw [Activity.Behaves, hnow] at behaves
    exact ih _ orderly resumable hold hnow behaves
  | write world next ih =>
    obtain ⟨hdeed, hnext⟩ := behaves
    rw [hnow] at hdeed
    have htakes : Takes me post (history.after world) { schedule with world } _ _ :=
      ih (orderly.write hold hdeed) (resumable.write hdeed) hold rfl hnext
    exact {
      deeds := List.isChain_cons_cons.mpr ⟨hdeed, htakes.deeds⟩
      now := htakes.now
      ends := htakes.ends
      orderly := htakes.orderly
      resumable := htakes.resumable
      continues := ⟨htakes.continues.fresh, htakes.continues.tasks⟩ }
  | self next ih => exact ih _ orderly resumable hold hnow behaves
  | park next ih => exact ⟨.singleton _, hnow, behaves, orderly.afterTurn, resumable, .refl _⟩
  | pass next ih =>
    obtain ⟨hfree, hnext⟩ := behaves
    rw [hnow] at hfree
    exact {
      deeds := .singleton _
      now := hnow.trans (wake_world schedule me.task).symm
      ends := fun later grows _ => hnext later grows
      orderly := orderly.afterTurn.wake hold (.inl ⟨by simp, hfree⟩)
      resumable := resumable.wake me.task
      continues := continues_wake schedule me.task }
  | sleep span next ih =>
    obtain ⟨hfree, hnext⟩ := behaves
    by_cases hspan : span = Span.zero
    · have htakes := ih orderly resumable hold hnow (hnext history (.refl history))
      simpa only [passed, turn, if_pos hspan] using htakes
    · rw [hnow] at hfree
      simp only [passed, turn, if_neg hspan]
      exact {
        deeds := .singleton _
        now := hnow
        ends := fun later grows _ => hnext later grows
        orderly := orderly.afterTurn.sleep hold hfree _
        resumable := resumable
        continues := ⟨Nat.le_refl _, fun task htask => .inl ⟨task, htask, rfl, rfl⟩⟩ }
  | wake task next ih =>
    obtain ⟨⟨hne, hcaller, hfree⟩, hnext⟩ := behaves
    rw [hnow] at hcaller hfree
    have hborn : task < schedule.fresh := by
      by_contra hge
      exact orderly.unborn task (Nat.le_of_not_lt hge) hcaller
    have htakes := ih (orderly.wake hborn (.inl ⟨by simpa using hne.symm, hfree⟩))
      (resumable.wake task) (by rw [wake_fresh]; exact hold)
      (hnow.trans (wake_world schedule task).symm) hnext
    exact {
      deeds := wake_world schedule task ▸ htakes.deeds
      now := htakes.now
      ends := htakes.ends
      orderly := htakes.orderly
      resumable := htakes.resumable
      continues := (continues_wake schedule task).trans htakes.continues }
  | spawn job next ih =>
    obtain ⟨hknown, hnext⟩ := behaves
    rw [hnow] at hknown
    have hne : some me.task ≠ some schedule.fresh := by
      simpa using Nat.ne_of_lt hold
    have htakes := ih schedule.fresh (orderly.spawn hknown hne) (resumable.spawn orderly hknown)
      (Nat.lt_succ_of_lt hold) hnow (hnext schedule.fresh)
    exact {
      deeds := htakes.deeds
      now := htakes.now
      ends := htakes.ends
      orderly := htakes.orderly
      resumable := htakes.resumable
      continues := (continues_spawn schedule job).trans htakes.continues }
  | abort task next ih =>
    have hworld : (schedule.abort task).world = schedule.world := abort_world schedule task
    have htakes := ih (orderly.abort task) (resumable.abort task)
      (Nat.lt_of_lt_of_le hold (continues_abort schedule task).fresh) (hnow.trans hworld.symm) behaves
    exact {
      deeds := hworld ▸ htakes.deeds
      now := htakes.now
      ends := htakes.ends
      orderly := htakes.orderly
      resumable := htakes.resumable
      continues := (continues_abort schedule task).trans htakes.continues }

/-- To remove a task continues a schedule. -/
theorem continues_remove (schedule : Schedule) (id : TaskId) :
    schedule.Continues (schedule.remove id) :=
  ⟨Nat.le_refl _, fun task htask => .inl ⟨task, List.mem_of_mem_filter htask, rfl, rfl⟩⟩

/-- To let a task go on continues a schedule. -/
theorem continues_resumeAt (schedule : Schedule) (id : TaskId) (rest : Activity (Option Job)) :
    schedule.Continues (schedule.resumeAt id rest) := by
  refine ⟨Nat.le_refl _, fun task htask => ?_⟩
  obtain ⟨before, hbefore, rfl⟩ := List.mem_map.mp htask
  exact .inl ⟨before, hbefore, by split <;> rfl, by split <;> rfl⟩

/-- Time that passes continues a schedule. -/
theorem continues_elapse (schedule : Schedule) (elapsed : Span) :
    schedule.Continues (schedule.elapse elapsed) := by
  have hfold (timers : List Timer) (schedule : Schedule) : schedule.Continues
      (timers.foldl (fun schedule timer => schedule.wake timer.task) schedule) := by
    induction timers generalizing schedule with
    | nil => exact .refl schedule
    | cons timer rest ih => exact (continues_wake schedule timer.task).trans (ih _)
  have hall := hfold (schedule.timers.filter (·.due.nanos ≤ elapsed.nanos))
    { schedule with
      world := { schedule.world with elapsed },
      timers := schedule.timers.filter (elapsed.nanos < ·.due.nanos) }
  exact ⟨hall.fresh, hall.tasks⟩

/-- The worlds that the turn of a task that was started for a job goes through. -/
def passedOfTask (schedule : Schedule) (task : Task) : List World :=
  if task.aborted then
    passed task.id task.job.cleanUp schedule
  else
    passed task.id task.rest schedule ++
      match turn task.id task.rest schedule with
      | (next, .failed _) => passed task.id task.job.cleanUp next
      | _ => []

/-- What the turn of a task comes to for the others. -/
structure Moves (me : RefreshCall) (schedule : Schedule) (worlds : List World)
    (after : Schedule) : Prop where
  deeds : World.Deeds me schedule.world worlds
  now : worlds.getLastD schedule.world = after.world
  orderly : after.Orderly none
  resumable : after.Resumable none
  continues : schedule.Continues after

/-- A task that breaks off is no more. -/
theorem Orderly.breakOff {task : Task} (orderly : schedule.Orderly (some task.id))
    (resumable : schedule.Resumable (some task.id)) (hold : task.id < schedule.fresh)
    (known : task.job.manager < schedule.world.managers.length) :
    Moves (task.job.call task.id) schedule (passed task.id task.job.cleanUp schedule)
      (schedule.breakOff task) := by
  have htakes : Takes (task.job.call task.id) _ ⟨schedule.world, []⟩ schedule
      (passed task.id task.job.cleanUp schedule)
      (Schedule.turn task.id task.job.cleanUp schedule) :=
    orderly.turn resumable hold rfl (Job.behaves_cleanUp orderly.sound known)
  have hnow := htakes.now
  rw [History.follow_now] at hnow
  exact {
    deeds := htakes.deeds
    now := hnow
    orderly := htakes.orderly.afterTurn.remove task.id
    resumable := htakes.resumable.remove
    continues := htakes.continues.trans (continues_remove _ task.id) }

/-- No task goes by the name of one that is not aborted and is aborted itself. -/
theorem Orderly.not_isAborted {task : Task} {acting : Option TaskId}
    (orderly : schedule.Orderly acting) (htask : task ∈ schedule.tasks)
    (haborted : task.aborted = false) : ¬schedule.IsAborted task.id := by
  rintro ⟨other, hother, hid, habort⟩
  have heq : other = task := List.inj_on_of_nodup_map orderly.distinct hother htask hid
  rw [heq, haborted] at habort
  cases habort

/-- A task that gets its turn and is not aborted waits at no gate. -/
theorem Orderly.not_isWaiting {task : Task} (orderly : schedule.Orderly none)
    (htask : task ∈ schedule.tasks) (hwoken : schedule.IsWoken task.id)
    (haborted : task.aborted = false) : ¬ schedule.world.IsWaiting task.id :=
  ((orderly.woken task.id hwoken).resolve_right (orderly.not_isAborted htask haborted)).2

/-- A task that goes on with another job does so in its own name. -/
private theorem resumes_following {task : Task} {following : Job} {history : History}
    (ended : task.job.Over task.id (some following) history) :
    ({ task with rest := following.activity } : Task).Resumes history.now := by
  obtain ⟨hmanager, hpurpose⟩ := ended.next following rfl
  refine ⟨history, rfl, ?_⟩
  have hresumes : following.activity.Resumes (following.call task.id) (following.Over task.id)
      history := resumes_activity ended.standing (hmanager ▸ ended.known)
  have hcall : following.call task.id = task.job.call task.id := by rw [Job.call, Job.call, hpurpose]
  rw [hcall] at hresumes
  refine hresumes.mono ?_
  rintro next later hover
  refine ⟨hover.standing, hmanager ▸ hover.known, fun last hlast => ?_⟩
  obtain ⟨hmanager', hpurpose'⟩ := hover.next last hlast
  exact ⟨hmanager'.trans hmanager, hpurpose'.trans hpurpose⟩

/-- The turn of a task that is not aborted, from where it behaves. -/
private theorem Orderly.turnOfResumed {task : Task} {history : History}
    (orderly : schedule.Orderly (some task.id)) (resumable : schedule.Resumable (some task.id))
    (htask : task ∈ schedule.tasks) (haborted : task.aborted = false)
    (hnow : history.now = schedule.world)
    (behaves : task.rest.Behaves (task.job.call task.id) (task.job.Over task.id) history) :
    Moves (task.job.call task.id) schedule (passedOfTask schedule task)
      (schedule.turnOfTask task) := by
  have hold := orderly.born task htask
  have htakes : Takes (task.job.call task.id) (task.job.Over task.id) history schedule
      (passed task.id task.rest schedule) (Schedule.turn task.id task.rest schedule) :=
    orderly.turn resumable hold hnow behaves
  simp only [passedOfTask, Schedule.turnOfTask, haborted, Bool.false_eq_true, if_false]
  rcases hturn : Schedule.turn task.id task.rest schedule with ⟨next, ending⟩
  rw [hturn] at htakes
  have hjob : ∀ other ∈ next.tasks, other.id = task.id → other.job = task.job := by
    intro other hother hid
    rcases htakes.continues.tasks other hother with ⟨before, hbefore, hid', hjob'⟩ | hnew
    · have heq : before = task :=
        List.inj_on_of_nodup_map orderly.distinct hbefore htask (hid'.trans hid)
      rw [← hjob', heq]
    · exact absurd hold (Nat.not_lt_of_le (hid ▸ hnew))
  have hlast : (history.follow (passed task.id task.rest schedule)).now = next.world := htakes.now
  have hworld : (passed task.id task.rest schedule).getLastD schedule.world = next.world := by
    rw [← hlast, History.follow_now, hnow]
  cases ending with
  | waiting rest =>
    refine {
      deeds := by simpa using htakes.deeds
      now := by rw [List.append_nil, hworld]; rfl
      orderly := htakes.orderly.resumeAt task.id rest
      resumable := htakes.resumable.resumeAt fun other hother hid => ⟨_, hlast, ?_⟩
      continues := htakes.continues.trans (continues_resumeAt next task.id rest) }
    simp only [hjob other hother hid, hid]
    exact htakes.ends
  | failed fault =>
    have hknown : task.job.manager < next.world.managers.length := by
      rw [← hworld, htakes.deeds.precedes.managerCount]
      exact orderly.known task htask
    have hbroken := Orderly.breakOff htakes.orderly htakes.resumable
      (Nat.lt_of_lt_of_le hold htakes.continues.fresh) hknown
    exact {
      deeds := htakes.deeds.append (hworld ▸ hbroken.deeds)
      now := by
        rw [getLastD_append, hworld]
        exact hbroken.now
      orderly := hbroken.orderly
      resumable := hbroken.resumable
      continues := htakes.continues.trans hbroken.continues }
  | finished following =>
    cases following with
    | none =>
      exact {
        deeds := by simpa using htakes.deeds
        now := by rw [List.append_nil, hworld]; rfl
        orderly := htakes.orderly.afterTurn.remove task.id
        resumable := htakes.resumable.remove
        continues := htakes.continues.trans (continues_remove next task.id) }
    | some job =>
      have hover : task.job.Over task.id (some job)
          (history.follow (passed task.id task.rest schedule)) := htakes.ends
      have hfree : ¬ next.world.IsWaiting task.id := hlast ▸ hover.standing.not_isWaiting
      have hagain : (next.resumeAt task.id job.activity).Resumable none := by
        refine htakes.resumable.resumeAt fun other hother hid => ?_
        have hresumes := resumes_following hover
        rw [hlast] at hresumes
        obtain ⟨later, hlater, hrest⟩ := hresumes
        refine ⟨later, hlater, ?_⟩
        simp only [hjob other hother hid, hid]
        exact hrest
      have hcontinues := htakes.continues.trans (continues_resumeAt next task.id job.activity)
      exact {
        deeds := by simpa using htakes.deeds
        now := by rw [List.append_nil, hworld]; rfl
        orderly := (htakes.orderly.afterTurn.resumeAt task.id job.activity).goOn
          (Nat.lt_of_lt_of_le hold htakes.continues.fresh) hfree
        resumable := hagain
        continues := ⟨hcontinues.fresh, hcontinues.tasks⟩ }

/-- The turn of a task that was started for a job. -/
theorem Orderly.turnOfTask {task : Task} (orderly : schedule.Orderly none)
    (resumable : schedule.Resumable none) (htask : task ∈ schedule.tasks)
    (hwoken : schedule.IsWoken task.id) :
    Moves (task.job.call task.id) (schedule.resume task.id)
      (passedOfTask (schedule.resume task.id) task)
      ((schedule.resume task.id).turnOfTask task) := by
  have hresume := orderly.resume task.id
  have hothers := resumable.resume task.id
  cases haborted : task.aborted with
  | true =>
    simp only [passedOfTask, Schedule.turnOfTask, haborted, if_true]
    exact hresume.breakOff hothers (orderly.born task htask) (orderly.known task htask)
  | false =>
    obtain ⟨history, hnow, hresumes⟩ := resumable task htask (by simp)
    have hfree := orderly.not_isWaiting htask hwoken haborted
    rw [← hnow] at hfree
    exact hresume.turnOfResumed hothers htask haborted hnow
      (hresumes history (.refl history) hfree)

end Schedule

end CloudSession
