import CloudSession.Proofs.Schedule.Turn

/-!
# The course of a turn

The turn of one activity after another is the turn of the first and, if that comes to its end, the
turn of the second. Whatever a task does in its turn, it takes no other away from where it is: tasks
are only aborted, and those that are aborted can run.
-/

namespace CloudSession

/-- What another task can do to one: it may abort it. -/
def Task.Becomes (task later : Task) : Prop :=
  later = task ∨ later = { task with aborted := true }

namespace Task.Becomes

variable {task middle later : Task}

/-- What a task becomes in two steps it becomes. -/
theorem trans (first : task.Becomes middle) (second : middle.Becomes later) :
    task.Becomes later := by
  rcases first with rfl | rfl
  · exact second
  · rcases second with rfl | rfl <;> exact .inr rfl

/-- A task keeps its name. -/
theorem id_eq (becomes : task.Becomes later) : later.id = task.id := by
  rcases becomes with rfl | rfl <;> rfl

/-- A task keeps its job. -/
theorem job_eq (becomes : task.Becomes later) : later.job = task.job := by
  rcases becomes with rfl | rfl <;> rfl

/-- A task keeps what it has left to do while others have their turns. -/
theorem rest_eq (becomes : task.Becomes later) : later.rest = task.rest := by
  rcases becomes with rfl | rfl <;> rfl

/-- A task that is aborted stays so. -/
theorem aborted (becomes : task.Becomes later) (h : task.aborted = true) :
    later.aborted = true := by
  rcases becomes with rfl | rfl
  · exact h
  · rfl

end Task.Becomes

namespace Schedule

variable {α β : Type} {schedule middle after : Schedule} {me : TaskId}

/-! ## One activity after another -/

/-- In a turn, one activity goes on after another if the first is done. -/
theorem turn_bind (me : TaskId) (activity : Activity α) (f : α → Activity β)
    (schedule : Schedule) :
    turn me (activity >>= f) schedule =
      match turn me activity schedule with
      | (next, .finished value) => turn me (f value) next
      | (next, .failed fault) => (next, .failed fault)
      | (next, .waiting rest) => (next, .waiting (rest >>= f)) := by
  change turn me (activity.bind f) schedule = _
  induction activity generalizing schedule with
  | read next ih => exact ih _ schedule
  | clock next ih => exact ih _ schedule
  | write world next ih => exact ih _
  | self next ih => exact ih _ schedule
  | sleep span next ih =>
    by_cases hspan : span = Span.zero
    · simpa only [Activity.bind, turn, if_pos hspan] using ih schedule
    · simp only [Activity.bind, turn, if_neg hspan]
      rfl
  | wake task next ih => exact ih _
  | spawn job next ih => exact ih _ _
  | abort task next ih => exact ih _
  | _ => rfl

/-- If the first activity is done, the turn goes on with the second. -/
theorem turn_bind_of_finished {activity : Activity α} {value : α}
    (h : turn me activity schedule = (after, .finished value)) (f : α → Activity β) :
    turn me (activity >>= f) schedule = turn me (f value) after := by
  rw [turn_bind, h]

/-- If an activity is done, so is the mapped one. -/
theorem turn_map {activity : Activity α} {value : α}
    (h : turn me activity schedule = (after, .finished value)) (f : α → β) :
    turn me (f <$> activity) schedule = (after, .finished (f value)) :=
  turn_bind_of_finished h _

/-- A turn of two activities goes through the worlds of the first, and those of the second if the
first is done. -/
theorem passed_bind (me : TaskId) (activity : Activity α) (f : α → Activity β)
    (schedule : Schedule) :
    passed me (activity >>= f) schedule =
      passed me activity schedule ++
        match turn me activity schedule with
        | (next, .finished value) => passed me (f value) next
        | _ => [] := by
  change passed me (activity.bind f) schedule = _
  induction activity generalizing schedule with
  | read next ih => exact ih _ schedule
  | clock next ih => exact ih _ schedule
  | write world next ih => exact congrArg (world :: ·) (ih _)
  | self next ih => exact ih _ schedule
  | sleep span next ih =>
    by_cases hspan : span = Span.zero
    · simpa only [Activity.bind, passed, turn, if_pos hspan] using ih schedule
    · simp only [Activity.bind, passed, turn, if_neg hspan, List.append_nil]
  | wake task next ih => exact ih _
  | spawn job next ih => exact ih _ _
  | abort task next ih => exact ih _
  | _ => rfl

/-- If the first activity is done, the turn goes through the worlds of both. -/
theorem passed_bind_of_finished {activity : Activity α} {value : α}
    (h : turn me activity schedule = (after, .finished value)) (f : α → Activity β) :
    passed me (activity >>= f) schedule =
      passed me activity schedule ++ passed me (f value) after := by
  rw [passed_bind, h]

/-- The last world that a turn goes through is the one after it. -/
theorem passed_getLastD (me : TaskId) (activity : Activity α) (schedule : Schedule) :
    (passed me activity schedule).getLastD schedule.world = (turn me activity schedule).1.world := by
  induction activity generalizing schedule with
  | read next ih => exact ih _ schedule
  | clock next ih => exact ih _ schedule
  | write world next ih =>
    rw [passed, List.getLastD_cons]
    exact ih { schedule with world }
  | self next ih => exact ih _ schedule
  | pass next ih => exact (wake_world schedule me).symm
  | sleep span next ih =>
    by_cases hspan : span = Span.zero
    · simpa only [passed, turn, if_pos hspan] using ih schedule
    · simp only [passed, turn, if_neg hspan]
      rfl
  | wake task next ih => simpa only [passed, turn, wake_world] using ih (schedule.wake task)
  | spawn job next ih => exact ih schedule.fresh (schedule.spawn job)
  | abort task next ih => simpa only [passed, turn, abort_world] using ih (schedule.abort task)
  | _ => rfl

/-- The world after a turn is the last one that it goes through, or the one before it. -/
theorem world_turn_mem (me : TaskId) (activity : Activity α) (schedule : Schedule) :
    (turn me activity schedule).1.world ∈ schedule.world :: passed me activity schedule := by
  rw [← passed_getLastD]
  exact List.getLastD_mem_cons

/-! ## What a turn does to the other tasks -/

/-- Tasks stay where they are, and those that are aborted in the meantime can run. -/
structure Advances (schedule after : Schedule) : Prop where
  fresh : schedule.fresh ≤ after.fresh
  kept : ∀ task ∈ schedule.tasks, ∃ later ∈ after.tasks, task.Becomes later
  origin : ∀ later ∈ after.tasks, (∃ task ∈ schedule.tasks, task.Becomes later) ∨
    schedule.fresh ≤ later.id ∧ later.rest = later.job.activity
  ready : ∀ id ∈ schedule.ready, id ∈ after.ready
  urgent : ∀ later ∈ after.tasks, later.aborted = true →
    later ∈ schedule.tasks ∨ later.id ∈ after.ready

/-- Where the tasks are the same, they stay where they are. -/
theorem advances_of_tasks_eq (hfresh : after.fresh = schedule.fresh)
    (htasks : after.tasks = schedule.tasks) (hready : ∀ id ∈ schedule.ready, id ∈ after.ready) :
    schedule.Advances after where
  fresh := Nat.le_of_eq hfresh.symm
  kept task htask := ⟨task, htasks ▸ htask, .inl rfl⟩
  origin later hlater := .inl ⟨later, htasks ▸ hlater, .inl rfl⟩
  ready := hready
  urgent _ hlater _ := .inl (htasks ▸ hlater)

/-- A schedule advances by nothing. -/
theorem Advances.refl (schedule : Schedule) : schedule.Advances schedule :=
  advances_of_tasks_eq rfl rfl fun _ h => h

/-- A schedule that advances twice advances. -/
theorem Advances.trans (first : schedule.Advances middle) (second : middle.Advances after) :
    schedule.Advances after where
  fresh := Nat.le_trans first.fresh second.fresh
  kept task htask := by
    obtain ⟨between, hbetween, hfirst⟩ := first.kept task htask
    obtain ⟨later, hlater, hsecond⟩ := second.kept between hbetween
    exact ⟨later, hlater, hfirst.trans hsecond⟩
  origin later hlater := by
    rcases second.origin later hlater with ⟨between, hbetween, hsecond⟩ | ⟨hnew, hrest⟩
    · rcases first.origin between hbetween with ⟨task, htask, hfirst⟩ | ⟨hnew, hrest⟩
      · exact .inl ⟨task, htask, hfirst.trans hsecond⟩
      · exact .inr ⟨hsecond.id_eq ▸ hnew, by rw [hsecond.rest_eq, hsecond.job_eq, hrest]⟩
    · exact .inr ⟨Nat.le_trans first.fresh hnew, hrest⟩
  ready id hid := second.ready id (first.ready id hid)
  urgent later hlater haborted := by
    rcases second.urgent later hlater haborted with hbetween | hready
    · exact (first.urgent later hbetween haborted).imp_right (second.ready _)
    · exact .inr hready

/-- To wake a task advances a schedule. -/
theorem advances_wake (schedule : Schedule) (id : TaskId) :
    schedule.Advances (schedule.wake id) :=
  advances_of_tasks_eq (wake_fresh schedule id) (wake_tasks schedule id) fun _ h =>
    mem_ready_wake.mpr (.inl h)

/-- To start a task advances a schedule. -/
theorem advances_spawn (schedule : Schedule) (job : Job) :
    schedule.Advances (schedule.spawn job) where
  fresh := Nat.le_succ _
  kept task htask := ⟨task, List.mem_append_left _ htask, .inl rfl⟩
  origin later hlater := by
    rcases List.mem_append.mp hlater with hbefore | hnew
    · exact .inl ⟨later, hbefore, .inl rfl⟩
    · rw [List.mem_singleton.mp hnew]
      exact .inr ⟨Nat.le_refl _, rfl⟩
  ready id hid := List.mem_append_left _ hid
  urgent later hlater haborted := by
    rcases List.mem_append.mp hlater with hbefore | hnew
    · exact .inl hbefore
    · rw [List.mem_singleton.mp hnew] at haborted
      cases haborted

/-- To abort a task advances a schedule. -/
theorem advances_abort (schedule : Schedule) (id : TaskId) :
    schedule.Advances (schedule.abort id) := by
  unfold abort
  split
  · refine ⟨?_, ?_, ?_, ?_, ?_⟩
    · rw [wake_fresh]
    · intro task htask
      rw [wake_tasks]
      refine ⟨_, List.mem_map_of_mem htask, ?_⟩
      split
      · exact .inr rfl
      · exact .inl rfl
    · intro later hlater
      rw [wake_tasks] at hlater
      obtain ⟨task, htask, rfl⟩ := List.mem_map.mp hlater
      refine .inl ⟨task, htask, ?_⟩
      split
      · exact .inr rfl
      · exact .inl rfl
    · exact fun _ h => mem_ready_wake.mpr (.inl h)
    · intro later hlater haborted
      rw [wake_tasks] at hlater
      obtain ⟨task, htask, rfl⟩ := List.mem_map.mp hlater
      split
      · next hid => exact .inr (mem_ready_wake.mpr (.inr hid))
      · exact .inl htask
  · exact .refl schedule

/-- In its turn, a task takes no other away from where it is. -/
theorem advances_turn (me : TaskId) (activity : Activity α) (schedule : Schedule) :
    schedule.Advances (turn me activity schedule).1 := by
  induction activity generalizing schedule with
  | read next ih => exact ih _ schedule
  | clock next ih => exact ih _ schedule
  | write world next ih =>
    have hwritten : schedule.Advances { schedule with world } :=
      advances_of_tasks_eq rfl rfl fun _ h => h
    exact hwritten.trans (ih _)
  | self next ih => exact ih _ schedule
  | pass next ih => exact advances_wake schedule me
  | sleep span next ih =>
    by_cases hspan : span = Span.zero
    · simpa only [turn, if_pos hspan] using ih schedule
    · simp only [turn, if_neg hspan]
      exact advances_of_tasks_eq rfl rfl fun _ h => h
  | wake task next ih => exact (advances_wake schedule task).trans (ih _)
  | spawn job next ih => exact (advances_spawn schedule job).trans (ih _ _)
  | abort task next ih => exact (advances_abort schedule task).trans (ih _)
  | _ => exact .refl schedule

/-- After a turn, whatever has the name of a task that was there before has its job. -/
theorem Advances.job_eq {task : Task} (advances : schedule.Advances after)
    (distinct : (schedule.tasks.map Task.id).Nodup) (born : task.id < schedule.fresh)
    (htask : task ∈ schedule.tasks) {other : Task} (hother : other ∈ after.tasks)
    (hid : other.id = task.id) : other.job = task.job := by
  rcases advances.origin other hother with ⟨before, hbefore, hbecomes⟩ | ⟨hnew, -⟩
  · rw [hbecomes.job_eq, List.inj_on_of_nodup_map distinct hbefore htask
      (hbecomes.id_eq.symm.trans hid)]
  · exact absurd born (Nat.not_lt_of_le (hid ▸ hnew))

/-! ## What happens to one other task -/

/-- A task is where it was, though it may have been aborted. -/
structure Retains (schedule after : Schedule) (id : TaskId) : Prop where
  fresh : schedule.fresh ≤ after.fresh
  kept : ∀ task ∈ schedule.tasks, task.id = id → ∃ later ∈ after.tasks, task.Becomes later
  origin : ∀ later ∈ after.tasks, later.id = id → id < schedule.fresh →
    ∃ task ∈ schedule.tasks, task.Becomes later

/-- A change that does not concern the tasks retains each of them. -/
theorem retains_of_tasks_eq {id : TaskId} (hfresh : schedule.fresh ≤ after.fresh)
    (htasks : after.tasks = schedule.tasks) : schedule.Retains after id where
  fresh := hfresh
  kept task htask _ := ⟨task, htasks ▸ htask, .inl rfl⟩
  origin later hlater _ _ := ⟨later, htasks ▸ hlater, .inl rfl⟩

/-- What advances a schedule retains its tasks. -/
theorem Advances.retains (advances : schedule.Advances after) (id : TaskId) :
    schedule.Retains after id where
  fresh := advances.fresh
  kept task htask _ := advances.kept task htask
  origin later hlater hid hborn :=
    (advances.origin later hlater).resolve_right fun ⟨hnew, _⟩ =>
      absurd hborn (Nat.not_lt_of_le (hid ▸ hnew))

/-- What is retained twice is retained. -/
theorem Retains.trans {id : TaskId} (first : schedule.Retains middle id)
    (second : middle.Retains after id) : schedule.Retains after id where
  fresh := Nat.le_trans first.fresh second.fresh
  kept task htask hid := by
    obtain ⟨between, hbetween, hfirst⟩ := first.kept task htask hid
    obtain ⟨later, hlater, hsecond⟩ := second.kept between hbetween (hfirst.id_eq.trans hid)
    exact ⟨later, hlater, hfirst.trans hsecond⟩
  origin later hlater hid hborn := by
    obtain ⟨between, hbetween, hsecond⟩ :=
      second.origin later hlater hid (Nat.lt_of_lt_of_le hborn first.fresh)
    obtain ⟨task, htask, hfirst⟩ :=
      first.origin between hbetween (hsecond.id_eq.symm.trans hid) hborn
    exact ⟨task, htask, hfirst.trans hsecond⟩

/-- A task is retained when another is removed. -/
theorem retains_remove {id other : TaskId} (schedule : Schedule) (hne : other ≠ id) :
    schedule.Retains (schedule.remove other) id where
  fresh := Nat.le_refl _
  kept task htask hid := by
    refine ⟨task, List.mem_filter.mpr ⟨htask, ?_⟩, .inl rfl⟩
    simpa [hid] using hne.symm
  origin later hlater _ _ := ⟨later, List.mem_of_mem_filter hlater, .inl rfl⟩

/-- A task is retained when another goes on. -/
theorem retains_resumeAt {id other : TaskId} (schedule : Schedule) (hne : other ≠ id)
    (rest : Activity (Option Job)) : schedule.Retains (schedule.resumeAt other rest) id where
  fresh := Nat.le_refl _
  kept task htask hid := by
    refine ⟨_, List.mem_map_of_mem htask, .inl ?_⟩
    rw [if_neg (by rw [hid]; exact hne.symm)]
  origin later hlater hid _ := by
    obtain ⟨task, htask, rfl⟩ := List.mem_map.mp hlater
    split at hid
    · next heq => exact absurd (heq.symm.trans hid) hne
    · next hother => exact ⟨task, htask, .inl (if_neg hother)⟩

/-- A task is retained when another breaks off. -/
theorem retains_breakOff {id : TaskId} {task : Task} (schedule : Schedule) (hne : task.id ≠ id) :
    schedule.Retains (schedule.breakOff task) id :=
  ((advances_turn task.id task.job.cleanUp schedule).retains id).trans (retains_remove _ hne)

/-- The turn of a task leaves every other one where it was. -/
theorem retains_turnOfTask {id : TaskId} {task : Task} (schedule : Schedule)
    (hne : task.id ≠ id) : schedule.Retains (schedule.turnOfTask task) id := by
  have hturn := (advances_turn task.id task.rest schedule).retains id
  unfold turnOfTask
  split
  · exact retains_breakOff schedule hne
  · rcases heq : turn task.id task.rest schedule with ⟨next, ending⟩
    rw [heq] at hturn
    match ending with
    | .waiting rest => exact hturn.trans (retains_resumeAt next hne rest)
    | .failed _ => exact hturn.trans (retains_breakOff next hne)
    | .finished none => exact hturn.trans (retains_remove next hne)
    | .finished (some job) =>
      have hcontinued := retains_resumeAt next hne job.activity
      exact hturn.trans ⟨hcontinued.fresh, hcontinued.kept, hcontinued.origin⟩

end Schedule

end CloudSession
