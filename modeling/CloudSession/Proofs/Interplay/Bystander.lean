import CloudSession.Proofs.Background.Pace
import CloudSession.Proofs.Interplay.Discarded
import CloudSession.Proofs.Interplay.Remaining

/-!
# What others leave alone

A step is the turn of a certain task, or it is the work of others. Those leave the task where it is:
if it can run, it still can, and if it sleeps, it does so until its time has come or it is aborted.
-/

namespace CloudSession

namespace Schedule

variable {α : Type} {schedule after : Schedule} {id : TaskId}

/-- A task can run if it could before, and it sleeps until its time has come. -/
structure Undisturbed (schedule after : Schedule) (id : TaskId) : Prop where
  elapsed : schedule.world.elapsed.nanos ≤ after.world.elapsed.nanos
  ready : id ∈ schedule.ready → id ∈ after.ready
  asleep : ∀ due, ¬schedule.world.IsCaller id → schedule.IsAsleep id due →
    after.IsAborted id ∨ after.IsAsleep id due ∨ due ≤ after.world.elapsed.nanos

/-- Others leave a task undisturbed if no time passes and they leave it asleep. -/
theorem undisturbed_of_leavesAsleep (helapsed : after.world.elapsed = schedule.world.elapsed)
    (hready : id ∈ schedule.ready → id ∈ after.ready)
    (hasleep : ¬schedule.world.IsCaller id → schedule.LeavesAsleep after id) :
    schedule.Undisturbed after id where
  elapsed := Nat.le_of_eq (congrArg Span.nanos helapsed.symm)
  ready := hready
  asleep _ haway asleep := ((hasleep haway).isAsleep asleep).imp_right .inl

/-- A task gets its turn, or a caller comes: both leave others as they are. -/
structure Admits (schedule after : Schedule) (id : TaskId) : Prop where
  world : after.world = schedule.world
  ready : id ∈ schedule.ready → id ∈ after.ready
  asleep : ¬schedule.world.IsCaller id → schedule.LeavesAsleep after id

/-- That another task gets its turn leaves a task as it is. -/
theorem admits_resume (schedule : Schedule) {other : TaskId} (hne : id ≠ other) :
    schedule.Admits (schedule.resume other) id where
  world := rfl
  ready h := List.mem_filter.mpr ⟨h, decide_eq_true hne⟩
  asleep := leavesAsleep_resume schedule other

/-- That a caller comes and takes a name leaves every task as it is. -/
theorem admits_takeName (schedule : Schedule) (id : TaskId) :
    schedule.Admits schedule.takeName id where
  world := rfl
  ready h := h
  asleep := leavesAsleep_of_tasks_eq (Nat.le_succ _) rfl rfl (fun h => h) fun _ h _ => h

/-- The turn of a caller. -/
theorem Admits.turn {me : RefreshCall} {post : α → History → Prop} {activity : Activity α}
    {history : History} (admits : schedule.Admits after id)
    (obeys : ∀ law : TurnLaw, law.IsFrame → activity.Obeys law)
    (behaves : activity.Behaves me post history) (hnow : history.now = after.world)
    (orderly : after.Orderly (some me.task)) (resumable : after.Resumable (some me.task))
    (hold : me.task < after.fresh) (hne : id ≠ me.task) (hborn : id < after.fresh) :
    schedule.Undisturbed (after.turn me.task activity).1 id := by
  have hdeeds := (orderly.turn resumable hold hnow behaves).deeds
  refine undisturbed_of_leavesAsleep ?_ (fun h => ?_) fun haway => ?_
  · rw [(elapsed_turn obeys me.task after).1, admits.world]
  · exact (advances_turn me.task activity after).ready id (admits.ready h)
  · have hcame := admits.asleep haway
    exact hcame.trans (leavesAsleep_turn behaves hnow hdeeds hne hborn hcame.away)

/-- A caller that is dropped, or a task that is no more. -/
theorem Undisturbed.remove (undisturbed : schedule.Undisturbed after id) {other : TaskId}
    (hne : id ≠ other) : schedule.Undisturbed (after.remove other) id where
  elapsed := undisturbed.elapsed
  ready h := List.mem_filter.mpr ⟨undisturbed.ready h, decide_eq_true hne⟩
  asleep due haway asleep := by
    rcases undisturbed.asleep due haway asleep with ⟨task, htask, hid, haborted⟩ | hasleep | hdue
    · exact .inl ⟨task, List.mem_filter.mpr ⟨htask, by simpa [hid] using hne⟩, hid, haborted⟩
    · exact .inr (.inl ⟨fun h => hasleep.1 (List.mem_of_mem_filter h),
        fun timer htimer => hasleep.2 timer (List.mem_of_mem_filter htimer)⟩)
    · exact .inr (.inr hdue)

/-- When time passes, a task that sleeps does so until its time has come. -/
theorem undisturbed_elapse {elapsed : Span} (h : schedule.world.elapsed.nanos ≤ elapsed.nanos) :
    schedule.Undisturbed (schedule.elapse elapsed) id where
  elapsed := by rwa [elapse_world]
  ready := (elapse_keeps schedule elapsed).2.2 id
  asleep due _ asleep := by
    rw [elapse_world]
    rcases Nat.lt_or_ge elapsed.nanos due with hearly | hlate
    · exact .inr (.inl (asleep.elapse hearly))
    · exact .inr (.inr hlate)

end Schedule

namespace Interplay

variable {last next : Interplay} {task : TaskId}

/-- A step is the turn of a certain task, or leaves it undisturbed. -/
theorem Step.turn_or_undisturbed (step : Step last next) (reachable : last.Reachable)
    (hborn : task < last.schedule.fresh) (hclients : ∀ client ∈ last.clients, client.task ≠ task) :
    (∃ loop ∈ last.schedule.tasks, loop.id = task ∧ loop.id ∈ last.schedule.ready ∧
        next = last.turnOfTask loop) ∨ last.schedule.Undisturbed next.schedule task := by
  have sound := reachable.sound
  cases step with
  | @turnOfClient client rest hclient hstate hready =>
    have hfine := sound.fine client hclient (by simp)
    have hobeys := reachable.isAt Operation.lasting_obeys client hclient
    unfold Client.Fine at hfine
    unfold Client.IsAt at hobeys
    rw [hstate] at hfine hobeys
    obtain ⟨hnow, hresumes⟩ := hfine
    have hfree := sound.not_isWaiting hclient hready
    have hadmits := Schedule.admits_resume last.schedule (hclients client hclient).symm
    exact .inr (hadmits.turn hobeys
      (hresumes client.history (.refl _) (hnow ▸ hfree)) hnow (sound.orderly.resume client.task)
      (sound.resumable.resume client.task) (sound.born client hclient)
      (hclients client hclient).symm hborn)
  | @turnOfTask other hother hready =>
    by_cases hid : other.id = task
    · exact .inl ⟨other, hother, hid, hready, rfl⟩
    · have heeds := (reachable.eachIs Job.lasting_heeds other hother).2
      have hne := Ne.symm hid
      exact .inr (Schedule.undisturbed_of_leavesAsleep (Schedule.elapsed_turnOfTask heeds)
        (fun h => Schedule.mem_ready_turnOfTask hne
          ((Schedule.admits_resume last.schedule hne).ready h))
        (Schedule.leavesAsleep_turnOfTask sound.orderly sound.resumable hother (.inl hready) hne
          hborn))
  | elapse hlater => exact .inr (Schedule.undisturbed_elapse hlater)
  | @disturb world outside helapsed =>
    refine .inr (Schedule.undisturbed_of_leavesAsleep helapsed (fun h => h) fun haway => ?_)
    exact ⟨Nat.le_refl _, fun h => haway (outside.isCaller h), fun h => h, .inl,
      fun _ htimer _ => htimer⟩
  | @call operation fits =>
    have hbehaves := Operation.behaves_activity (sound.orderly.standing (Nat.le_refl _)) fits
    exact .inr ((Schedule.admits_takeName last.schedule task).turn
      (fun _ frame => operation.obeys frame) hbehaves rfl sound.orderly.admit
      (fun other hother _ => sound.resumable other hother (by simp)) (Nat.lt_succ_self _)
      (Nat.ne_of_lt hborn) (Nat.lt_succ_of_lt hborn))
  | @drop client hclient _ =>
    have hne := (hclients client hclient).symm
    have hadmits := Schedule.admits_resume last.schedule hne
    let present : History := ⟨last.schedule.world, []⟩
    have hbehaves : (release present.now.managers.length present.now.caches.length).Behaves
        client.call (fun _ later => later.now.Sound) present :=
      behaves_release sound.orderly.sound
    have hturn := hadmits.turn
      (fun _ frame => obeys_release frame last.schedule.world.managers.length
        last.schedule.world.caches.length) hbehaves rfl
      (sound.orderly.resume client.task) (sound.resumable.resume client.task)
      (sound.born client hclient) hne hborn
    exact .inr (hturn.remove hne)

end Interplay

end CloudSession
