import CloudSession.Proofs.Schedule.Course

/-!
# Tasks that sleep

A task sleeps until a certain time if it cannot run and has no timer that is due earlier. Others
leave it asleep in their turns: whoever can run after a turn could run before, or is new, or has
been let in at a gate, unless it is aborted. When time passes, it wakes only once its time has come.
-/

namespace CloudSession

/-- Whoever is at no gate is brought to none by what happens elsewhere. -/
theorem World.Elsewhere.isCaller {world after : World} {task : TaskId}
    (elsewhere : world.Elsewhere task after) (h : after.IsCaller task) : world.IsCaller task := by
  rcases elsewhere with ⟨other, hne, deed⟩ | outside
  · exact deed.isCaller hne.symm h
  · exact outside.isCaller h

namespace Schedule

variable {α : Type} {schedule middle after : Schedule} {id : TaskId}

/-- A task cannot run before so much time has passed, unless somebody wakes it. -/
def IsAsleep (schedule : Schedule) (id : TaskId) (due : Nat) : Prop :=
  id ∉ schedule.ready ∧ ∀ timer ∈ schedule.timers, timer.task = id → due ≤ timer.due.nanos

/-- A task that is at no gate still is at none, and it is not woken unless it is aborted. -/
structure LeavesAsleep (schedule after : Schedule) (id : TaskId) : Prop where
  fresh : schedule.fresh ≤ after.fresh
  away : ¬after.world.IsCaller id
  aborted : schedule.IsAborted id → after.IsAborted id
  ready : id ∈ after.ready → id ∈ schedule.ready ∨ after.IsAborted id
  timers : ∀ timer ∈ after.timers, timer.task = id → timer ∈ schedule.timers

namespace LeavesAsleep

/-- Who is left asleep twice is left asleep. -/
theorem trans (first : schedule.LeavesAsleep middle id) (second : middle.LeavesAsleep after id) :
    schedule.LeavesAsleep after id where
  fresh := Nat.le_trans first.fresh second.fresh
  away := second.away
  aborted h := second.aborted (first.aborted h)
  ready h := (second.ready h).elim (fun hmiddle => (first.ready hmiddle).imp_right second.aborted)
    .inr
  timers timer htimer hid := first.timers timer (second.timers timer htimer hid) hid

/-- What sleeps until some time still does, unless it is aborted. -/
theorem isAsleep (leaves : schedule.LeavesAsleep after id) {due : Nat}
    (asleep : schedule.IsAsleep id due) : after.IsAborted id ∨ after.IsAsleep id due := by
  by_cases haborted : after.IsAborted id
  · exact .inl haborted
  · exact .inr ⟨fun h => asleep.1 ((leaves.ready h).resolve_right haborted),
      fun timer htimer hid => asleep.2 timer (leaves.timers timer htimer hid) hid⟩

end LeavesAsleep

/-- A task that is aborted stays so in the turn of any. -/
theorem IsAborted.turn {me : TaskId} {activity : Activity α} (h : schedule.IsAborted id) :
    (schedule.turn me activity).1.IsAborted id := by
  obtain ⟨task, htask, hid, haborted⟩ := h
  obtain ⟨later, hlater, hbecomes⟩ := (advances_turn me activity schedule).kept task htask
  exact ⟨later, hlater, hbecomes.id_eq.trans hid, hbecomes.aborted haborted⟩

/-- Whoever can run once somebody is aborted could before, or is the one that is aborted. -/
private theorem ready_abort {other : TaskId} (h : id ∈ (schedule.abort other).ready) :
    id ∈ schedule.ready ∨ (schedule.abort other).IsAborted id := by
  unfold abort at h ⊢
  dsimp only at h ⊢
  split at h
  · next hany =>
    rw [if_pos hany]
    rcases mem_ready_wake.mp h with hbefore | rfl
    · exact .inl hbefore
    · obtain ⟨task, htask, hid⟩ := List.any_eq_true.mp hany
      have hid : task.id = id := of_decide_eq_true hid
      refine .inr ⟨{ task with aborted := true }, ?_, hid, rfl⟩
      rw [wake_tasks]
      exact List.mem_map.mpr ⟨task, htask, if_pos hid⟩
  · exact .inl h

/-- Whoever can run after a turn could run before, unless it has been let in at a gate or aborted.
The task whose turn it is can run again if it only lets others go first. -/
theorem ready_of_turn {me : RefreshCall} {post : α → History → Prop} {activity : Activity α}
    {history : History} (behaves : activity.Behaves me post history)
    (hnow : history.now = schedule.world) (hborn : id < schedule.fresh)
    (hfree : id ≠ me.task → ¬schedule.world.IsCaller id)
    (hends : id = me.task → ∀ rest, (schedule.turn me.task activity).2 ≠ .waiting rest)
    (h : id ∈ (schedule.turn me.task activity).1.ready) :
    id ∈ schedule.ready ∨ (schedule.turn me.task activity).1.IsAborted id := by
  induction activity generalizing schedule history with
  | done value => exact .inl h
  | fail fault => exact .inl h
  | read next ih =>
    rw [Activity.Behaves, hnow] at behaves
    exact ih _ behaves hnow hborn hfree hends h
  | clock next ih =>
    rw [Activity.Behaves, hnow] at behaves
    exact ih _ behaves hnow hborn hfree hends h
  | write world next ih =>
    obtain ⟨hdeed, hnext⟩ := behaves
    rw [hnow] at hdeed
    exact @ih { schedule with world } _ hnext rfl hborn
      (fun hne hcaller => hfree hne (hdeed.isCaller hne hcaller)) hends h
  | self next ih => exact ih _ behaves hnow hborn hfree hends h
  | park next ih => exact .inl h
  | pass next ih =>
    rcases mem_ready_wake.mp h with hbefore | hme
    · exact .inl hbefore
    · exact absurd rfl (hends hme next)
  | sleep span next ih =>
    obtain ⟨-, hnext⟩ := behaves
    by_cases hspan : span = Span.zero
    · simp only [turn, if_pos hspan] at h hends ⊢
      exact ih (hnext history (.refl history)) hnow hborn hfree hends h
    · simp only [turn, if_neg hspan] at h
      exact .inl h
  | wake task next ih =>
    obtain ⟨⟨hne, hcaller, -⟩, hnext⟩ := behaves
    rw [hnow] at hcaller
    have hworld := wake_world schedule task
    rcases ih hnext (hnow.trans hworld.symm) (by rwa [wake_fresh]) (by rwa [hworld]) hends h with
      hwoken | haborted
    · rcases mem_ready_wake.mp hwoken with hbefore | rfl
      · exact .inl hbefore
      · exact absurd hcaller (hfree hne)
    · exact .inr haborted
  | spawn job next ih =>
    obtain ⟨-, hnext⟩ := behaves
    rcases @ih schedule.fresh (schedule.spawn job) _ (hnext schedule.fresh) hnow
      (Nat.lt_succ_of_lt hborn) hfree hends h with hspawned | haborted
    · rcases List.mem_append.mp hspawned with hbefore | hnew
      · exact .inl hbefore
      · exact absurd (List.mem_singleton.mp hnew) (Nat.ne_of_lt hborn)
    · exact .inr haborted
  | abort task next ih =>
    have hworld := abort_world schedule task
    have hborn' := Nat.lt_of_lt_of_le hborn (advances_abort schedule task).fresh
    rcases @ih (schedule.abort task) _ behaves (hnow.trans hworld.symm) hborn' (by rwa [hworld])
      hends h with hbefore | haborted
    · exact (ready_abort hbefore).imp_right fun haborted => haborted.turn
    · exact .inr haborted

/-- In a turn, only the task whose turn it is goes to sleep, and then it waits. -/
theorem timers_of_turn (me : TaskId) (activity : Activity α) (schedule : Schedule) :
    ∀ timer ∈ (schedule.turn me activity).1.timers, timer ∈ schedule.timers ∨
      timer.task = me ∧ ∃ rest, (schedule.turn me activity).2 = .waiting rest := by
  induction activity generalizing schedule with
  | done value => exact fun _ h => .inl h
  | fail fault => exact fun _ h => .inl h
  | read next ih => exact ih _ schedule
  | clock next ih => exact ih _ schedule
  | write world next ih => exact ih { schedule with world }
  | self next ih => exact ih me schedule
  | park next ih => exact fun _ h => .inl h
  | pass next ih =>
    intro timer htimer
    rw [turn, wake_timers] at htimer
    exact .inl htimer
  | sleep span next ih =>
    by_cases hspan : span = Span.zero
    · simpa only [turn, if_pos hspan] using ih schedule
    · simp only [turn, if_neg hspan]
      intro timer htimer
      rcases List.mem_append.mp htimer with hbefore | hnew
      · exact .inl hbefore
      · rw [List.mem_singleton.mp hnew]
        exact .inr ⟨rfl, next, rfl⟩
  | wake task next ih =>
    have hnext := ih (schedule.wake task)
    rwa [wake_timers] at hnext
  | spawn job next ih => exact ih schedule.fresh (schedule.spawn job)
  | abort task next ih =>
    have hnext := ih (schedule.abort task)
    have htimers : (schedule.abort task).timers = schedule.timers := by
      unfold abort
      dsimp only
      split
      · rw [wake_timers]
      · rfl
    rwa [htimers] at hnext

/-! ## The turns of others -/

section Others

variable {task : Task}

/-- A task that behaves leaves others asleep that are at no gate. -/
theorem leavesAsleep_turn {me : RefreshCall} {post : α → History → Prop} {activity : Activity α}
    {history : History} (behaves : activity.Behaves me post history)
    (hnow : history.now = schedule.world)
    (deeds : World.Deeds me schedule.world (passed me.task activity schedule))
    (hne : id ≠ me.task) (hborn : id < schedule.fresh) (haway : ¬schedule.world.IsCaller id) :
    schedule.LeavesAsleep (schedule.turn me.task activity).1 id where
  fresh := (advances_turn me.task activity schedule).fresh
  away := by
    have hgrows : History.Grows id ⟨schedule.world, []⟩ _ := History.grows_follow hne.symm deeds
    have hlast := hgrows.stable (P := fun world => ¬world.IsCaller id)
      (fun _ _ elsewhere hnone hcaller => hnone (elsewhere.isCaller hcaller)) haway
    rwa [History.follow_now, passed_getLastD] at hlast
  aborted := IsAborted.turn
  ready := ready_of_turn behaves hnow hborn (fun _ => haway) fun heq => absurd heq hne
  timers timer htimer hid :=
    (timers_of_turn me.task activity schedule timer htimer).resolve_right fun h =>
      hne (hid.symm.trans h.1)

/-- A task is left asleep by what changes neither the tasks nor the world, and adds no timer of its
own. -/
theorem leavesAsleep_of_tasks_eq (hfresh : schedule.fresh ≤ after.fresh)
    (hworld : after.world = schedule.world) (htasks : after.tasks = schedule.tasks)
    (hready : id ∈ after.ready → id ∈ schedule.ready)
    (htimers : ∀ timer ∈ after.timers, timer.task = id → timer ∈ schedule.timers)
    (haway : ¬schedule.world.IsCaller id) : schedule.LeavesAsleep after id where
  fresh := hfresh
  away := hworld ▸ haway
  aborted h := by
    unfold IsAborted
    rwa [htasks]
  ready h := .inl (hready h)
  timers := htimers

/-- A task is left asleep when another has its turn. -/
theorem leavesAsleep_resume (schedule : Schedule) (other : TaskId)
    (haway : ¬schedule.world.IsCaller id) : schedule.LeavesAsleep (schedule.resume other) id :=
  leavesAsleep_of_tasks_eq (Nat.le_refl _) rfl rfl List.mem_of_mem_filter
    (fun _ htimer _ => List.mem_of_mem_filter htimer) haway

/-- A task is left asleep when another is removed. -/
theorem leavesAsleep_remove (schedule : Schedule) {other : TaskId} (hne : other ≠ id)
    (haway : ¬schedule.world.IsCaller id) : schedule.LeavesAsleep (schedule.remove other) id where
  fresh := Nat.le_refl _
  away := haway
  aborted h := by
    obtain ⟨task, htask, hid, haborted⟩ := h
    exact ⟨task, List.mem_filter.mpr ⟨htask, decide_eq_true (hid ▸ hne.symm)⟩, hid, haborted⟩
  ready h := .inl (List.mem_of_mem_filter h)
  timers _ htimer _ := List.mem_of_mem_filter htimer

/-- A task is left asleep when another goes on. -/
theorem leavesAsleep_resumeAt (schedule : Schedule) (other : TaskId)
    (rest : Activity (Option Job)) (haway : ¬schedule.world.IsCaller id) :
    schedule.LeavesAsleep (schedule.resumeAt other rest) id where
  fresh := Nat.le_refl _
  away := haway
  aborted h := by
    obtain ⟨task, htask, hid, haborted⟩ := h
    refine ⟨_, List.mem_map_of_mem htask, ?_⟩
    split
    · exact ⟨hid, haborted⟩
    · exact ⟨hid, haborted⟩
  ready := .inl
  timers _ htimer _ := htimer

/-- Another task that breaks off. -/
private theorem leavesAsleep_breakOff (orderly : schedule.Orderly (some task.id))
    (resumable : schedule.Resumable (some task.id)) (hold : task.id < schedule.fresh)
    (known : task.job.manager < schedule.world.managers.length) (hne : id ≠ task.id)
    (hborn : id < schedule.fresh) (haway : ¬schedule.world.IsCaller id) :
    schedule.LeavesAsleep (schedule.breakOff task) id := by
  have hbehaves : task.job.cleanUp.Behaves (task.job.call task.id)
      (fun _ => BrokenOff task.job.manager task.id) ⟨schedule.world, []⟩ :=
    Job.behaves_cleanUp orderly.sound known
  have hdeeds := (orderly.breakOff resumable hold known).deeds
  have hleaves := leavesAsleep_turn hbehaves rfl hdeeds hne hborn haway
  exact hleaves.trans (leavesAsleep_remove _ hne.symm hleaves.away)

/-- The turn of another task leaves asleep whoever is at no gate. -/
theorem leavesAsleep_turnOfTask (orderly : schedule.Orderly none)
    (resumable : schedule.Resumable none) (htask : task ∈ schedule.tasks)
    (hwoken : schedule.IsWoken task.id) (hne : id ≠ task.id) (hborn : id < schedule.fresh)
    (haway : ¬schedule.world.IsCaller id) :
    schedule.LeavesAsleep ((schedule.resume task.id).turnOfTask task) id := by
  have hresumed := leavesAsleep_resume schedule task.id haway
  have horderly := orderly.resume task.id
  have hothers := resumable.resume task.id
  have hold := orderly.born task htask
  have hknown := orderly.known task htask
  unfold Schedule.turnOfTask
  split
  · exact hresumed.trans (leavesAsleep_breakOff horderly hothers hold hknown hne hborn haway)
  · next haborted =>
    obtain ⟨history, hnow, hresumes⟩ := resumable task htask (by simp)
    have hfree := orderly.not_isWaiting htask hwoken (by simpa using haborted)
    rw [← hnow] at hfree
    have hbehaves := hresumes history (.refl history) hfree
    have htakes : Takes (task.job.call task.id) (task.job.Over task.id) history
        (schedule.resume task.id) (passed task.id task.rest (schedule.resume task.id))
        (turn task.id task.rest (schedule.resume task.id)) :=
      Orderly.turn horderly hothers hold hnow hbehaves
    have hturn : (schedule.resume task.id).LeavesAsleep
        (turn task.id task.rest (schedule.resume task.id)).1 id :=
      leavesAsleep_turn hbehaves hnow htakes.deeds hne hborn haway
    have hcount : task.job.manager <
        (turn task.id task.rest (schedule.resume task.id)).1.world.managers.length := by
      have hprecedes := htakes.deeds.precedes
      rw [passed_getLastD] at hprecedes
      rwa [hprecedes.managerCount]
    have hnext := hresumed.trans hturn
    have hborn' := Nat.lt_of_lt_of_le hborn hturn.fresh
    have hold' := Nat.lt_of_lt_of_le hold htakes.continues.fresh
    rcases heq : turn task.id task.rest (schedule.resume task.id) with ⟨next, ending⟩
    rw [heq] at hnext hcount hborn' hold'
    have horderly' := htakes.orderly
    have hothers' := htakes.resumable
    rw [heq] at horderly' hothers'
    match ending with
    | .waiting rest => exact hnext.trans (leavesAsleep_resumeAt next task.id rest hnext.away)
    | .failed fault =>
      exact hnext.trans (leavesAsleep_breakOff horderly' hothers' hold' hcount hne hborn' hnext.away)
    | .finished none => exact hnext.trans (leavesAsleep_remove next hne.symm hnext.away)
    | .finished (some job) =>
      have hcontinues := leavesAsleep_resumeAt next task.id job.activity hnext.away
      refine hnext.trans (hcontinues.trans (leavesAsleep_of_tasks_eq (Nat.le_refl _) rfl rfl ?_
        (fun _ htimer _ => htimer) hcontinues.away))
      exact fun h => (List.mem_cons.mp h).resolve_left hne

/-- Whoever can run still can when another task breaks off. -/
private theorem mem_ready_breakOff (hne : id ≠ task.id) (h : id ∈ schedule.ready) :
    id ∈ (schedule.breakOff task).ready :=
  List.mem_filter.mpr ⟨(advances_turn task.id task.job.cleanUp schedule).ready id h,
    decide_eq_true hne⟩

/-- Whoever can run still can after the turn of another task. -/
theorem mem_ready_turnOfTask (hne : id ≠ task.id) (h : id ∈ schedule.ready) :
    id ∈ (schedule.turnOfTask task).ready := by
  have hturn := (advances_turn task.id task.rest schedule).ready id h
  unfold turnOfTask
  split
  · exact mem_ready_breakOff hne h
  · rcases heq : turn task.id task.rest schedule with ⟨next, ending⟩
    rw [heq] at hturn
    match ending with
    | .waiting rest => exact hturn
    | .failed fault => exact mem_ready_breakOff hne hturn
    | .finished none => exact List.mem_filter.mpr ⟨hturn, decide_eq_true hne⟩
    | .finished (some job) => exact List.mem_cons_of_mem _ hturn

end Others

/-- To wake the tasks of some timers wakes nobody else, and leaves all timers as they are. -/
private theorem ready_wakeAll (timers : List Timer) (schedule : Schedule)
    (hothers : ∀ timer ∈ timers, timer.task ≠ id) :
    let woken := timers.foldl (fun schedule timer => schedule.wake timer.task) schedule
    woken.timers = schedule.timers ∧ (id ∈ woken.ready → id ∈ schedule.ready) := by
  induction timers generalizing schedule with
  | nil => exact ⟨rfl, fun h => h⟩
  | cons timer rest ih =>
    obtain ⟨htimers, hready⟩ := ih (schedule.wake timer.task)
      fun other hother => hothers other (List.mem_cons_of_mem _ hother)
    refine ⟨htimers.trans (wake_timers _ _), fun hid => ?_⟩
    rcases mem_ready_wake.mp (hready hid) with hbefore | heq
    · exact hbefore
    · exact absurd heq.symm (hothers timer List.mem_cons_self)

/-- Time passes, but not enough for a task to wake. -/
theorem IsAsleep.elapse {due : Nat} (asleep : schedule.IsAsleep id due) {elapsed : Span}
    (h : elapsed.nanos < due) : (schedule.elapse elapsed).IsAsleep id due := by
  have hothers : ∀ timer ∈ schedule.timers.filter (·.due.nanos ≤ elapsed.nanos),
      timer.task ≠ id := by
    intro timer htimer hid
    obtain ⟨hmem, hdue⟩ := List.mem_filter.mp htimer
    have hlate := asleep.2 timer hmem hid
    have hearly : timer.due.nanos ≤ elapsed.nanos := of_decide_eq_true hdue
    omega
  obtain ⟨htimers, hready⟩ := ready_wakeAll _
    { schedule with
      world := { schedule.world with elapsed },
      timers := schedule.timers.filter (elapsed.nanos < ·.due.nanos) } hothers
  refine ⟨fun hmem => asleep.1 (hready hmem), fun timer htimer hid => ?_⟩
  rw [Schedule.elapse] at htimer
  exact asleep.2 timer (List.mem_of_mem_filter (htimers ▸ htimer)) hid

end Schedule

end CloudSession
