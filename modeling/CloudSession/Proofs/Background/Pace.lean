import CloudSession.Proofs.Background.Advice
import CloudSession.Proofs.Background.Attempt

/-!
# The pace of a loop

A loop of background refresh begins its attempts with the first write of a turn. Once it has ended
one in a turn, it waits as it should. No time passes in its turns.
-/

namespace CloudSession

open Activity

/-! ## No time passes in a turn -/

namespace Schedule

variable {α : Type} {schedule : Schedule}

/-- That no time passes is a frame law. -/
theorem isFrame_elapsed : TurnLaw.IsFrame fun schedule worlds after =>
    after.world.elapsed = schedule.world.elapsed ∧
      ∀ world ∈ worlds, world.elapsed = schedule.world.elapsed where
  refl _ := ⟨rfl, by simp⟩
  trans first second := ⟨second.1.trans first.1, List.forall_mem_append.mpr
    ⟨first.2, fun world hworld => (second.2 world hworld).trans first.1⟩⟩
  wake schedule task := ⟨by rw [wake_world], by simp⟩
  sleep _ _ := ⟨rfl, by simp⟩
  write _ _ minor := ⟨minor.elapsed, List.forall_mem_singleton.mpr minor.elapsed⟩
  advise _ _ _ _ := ⟨rfl, List.forall_mem_cons.mpr ⟨rfl, List.forall_mem_singleton.mpr rfl⟩⟩
  adviseInVain _ _ _ _ :=
    ⟨rfl, List.forall_mem_cons.mpr ⟨rfl, List.forall_mem_singleton.mpr rfl⟩⟩
  giveUp schedule id := ⟨by rw [giveUp_world]; rfl, List.forall_mem_singleton.mpr rfl⟩
  start _ _ _ := ⟨rfl, List.forall_mem_singleton.mpr rfl⟩

/-- No time passes in a turn. -/
theorem elapsed_turn {activity : Activity α}
    (h : ∀ law : TurnLaw, law.IsFrame → activity.Obeys law) (me : TaskId) (schedule : Schedule) :
    (schedule.turn me activity).1.world.elapsed = schedule.world.elapsed ∧
      ∀ world ∈ schedule.passed me activity, world.elapsed = schedule.world.elapsed :=
  (h _ isFrame_elapsed).turn me schedule

/-- No time passes while a task breaks off. -/
theorem elapsed_breakOff (schedule : Schedule) (task : Task) :
    (schedule.breakOff task).world.elapsed = schedule.world.elapsed := by
  by_cases hadviser : ∃ id, task.job = .advisory id
  · obtain ⟨id, hjob⟩ := hadviser
    obtain ⟨left, after, hleft, hturn, hcases⟩ := turn_cleanUp_advisory task.id id schedule
    have hleaves :=
      (elapsed_turn (fun _ frame => ManagerId.obeys_abandon frame id) task.id schedule).1
    rw [hleft] at hleaves
    rw [breakOff, hjob, hturn]
    rcases hcases with rfl | rfl
    · exact hleaves
    · rw [remove, giveUp_world]
      exact hleaves
  · exact (elapsed_turn (fun _ frame => Job.obeys_cleanUp frame (not_exists.mp hadviser)) task.id
      schedule).1

/-- No time passes in the turn of a task. -/
theorem elapsed_turnOfTask {task : Task} (heeds : task.job.Heeds task.id task.rest) :
    (schedule.turnOfTask task).world.elapsed = schedule.world.elapsed := by
  have hturn : (schedule.turn task.id task.rest).1.world.elapsed = schedule.world.elapsed := by
    by_cases hadviser : ∃ id, task.job = .advisory id
    · obtain ⟨id, hjob⟩ := hadviser
      rw [hjob] at heeds
      obtain ⟨refresh, hrest, hobeys, -⟩ := heeds
      have hrefresh := (elapsed_turn hobeys task.id schedule).1
      rw [hrest, turn_bind]
      rcases heq : schedule.turn task.id refresh with ⟨next, ending⟩
      rw [heq] at hrefresh
      cases ending with
      | failed fault => exact hrefresh
      | waiting rest => exact hrefresh
      | finished value =>
        obtain ⟨after, hover, rfl | rfl⟩ := turn_adviceOver task.id id next
        · simp only [hover]
          exact hrefresh
        · simp only [hover, giveUp_world]
          exact hrefresh
    · exact (elapsed_turn (fun _ frame => heeds.obeys (not_exists.mp hadviser) frame) task.id
        schedule).1
  unfold turnOfTask
  split
  · exact elapsed_breakOff schedule task
  · rcases heq : turn task.id task.rest schedule with ⟨next, ending⟩
    rw [heq] at hturn
    match ending with
    | .waiting _ => exact hturn
    | .failed _ => exact (elapsed_breakOff next task).trans hturn
    | .finished none => exact hturn
    | .finished (some _) => exact hturn

/-- No time passes in the turn of a loop, nor before it breaks off. -/
theorem elapsed_passedOfTask {task : Task} (hloop : ∀ id, task.job ≠ .advisory id)
    (heeds : task.job.Heeds task.id task.rest) :
    ∀ world ∈ schedule.passedOfTask task, world.elapsed = schedule.world.elapsed := by
  have hturn := elapsed_turn (fun _ frame => heeds.obeys hloop frame) task.id schedule
  have hcleanUp (schedule : Schedule) :=
    (elapsed_turn (fun _ frame => Job.obeys_cleanUp frame hloop) task.id schedule).2
  unfold passedOfTask
  split
  · exact hcleanUp schedule
  · refine List.forall_mem_append.mpr ⟨hturn.2, ?_⟩
    split
    · next next fault heq =>
      rw [heq] at hturn
      exact fun world hworld => (hcleanUp next world hworld).trans hturn.1
    · simp

end Schedule

/-! ## The stages of a loop -/

namespace ManagerId

/-- A task that is away from the gate of a manager does not arrive there. -/
def StaysAway (id : ManagerId) (me : TaskId) (world after : World) : Prop :=
  (world.manager id).IsAway me → (after.manager id).IsAway me

/-- Where a loop of background refresh is between its turns. -/
inductive LoopStage (id : ManagerId) (me : TaskId) (world : World) : Activity (Option Job) → Prop
  | starts : ¬world.IsCaller me → LoopStage id me world id.awaitFirstRound
  | rests : ¬world.IsCaller me → LoopStage id me world (pure (some (.round id)))
  | due : ¬world.IsCaller me → LoopStage id me world id.backgroundRound
  | attempts {refresh : Activity (Except TokenError Token)} : id.StaysUntil me refresh →
      ¬(world.manager id).IsAway me → LoopStage id me world (refresh >>= fun _ => id.afterRefresh)

end ManagerId

/-- Whoever is no caller is away from the gate of every manager. -/
theorem World.isAway_of_not_isCaller {world : World} {id : ManagerId} {me : TaskId}
    (h : ¬world.IsCaller me) : (world.manager id).IsAway me :=
  fun call hcall htask => h ⟨.manager id, List.mem_map.mpr ⟨call, hcall, htask⟩⟩

/-- What happens elsewhere does not bring a task away from where it is at the gate. -/
theorem World.Elsewhere.isAway_iff {world after : World} {id : ManagerId} {me : TaskId}
    (elsewhere : World.Elsewhere me world after) :
    (after.manager id).IsAway me ↔ (world.manager id).IsAway me := by
  refine ⟨fun h call hcall htask => ?_, elsewhere.isAway⟩
  rcases Gate.mem_callers.mp hcall with hholder | hqueue
  · exact h call (Gate.mem_callers.mpr (.inl (elsewhere.manager_holder htask hholder))) htask
  · exact h call (Gate.mem_callers.mpr (elsewhere.manager_queue htask hqueue).symm) htask

/-- What happens elsewhere leaves a loop at its stage. -/
theorem ManagerId.LoopStage.elsewhere {id : ManagerId} {me : TaskId} {world after : World}
    {rest : Activity (Option Job)} (stage : id.LoopStage me world rest)
    (elsewhere : World.Elsewhere me world after) : id.LoopStage me after rest := by
  cases stage with
  | starts haway => exact .starts fun h => haway (elsewhere.isCaller h)
  | rests haway => exact .rests fun h => haway (elsewhere.isCaller h)
  | due haway => exact .due fun h => haway (elsewhere.isCaller h)
  | attempts stays hthere => exact .attempts stays fun h => hthere (elsewhere.isAway_iff.mp h)

section BreaksOff

variable {id : ManagerId} {me : TaskId} {world : World}

/-- Whether a manager is in use is only looked up. -/
private theorem meets_isInUse {contract : Contract} {post : Bool → World → Prop}
    (h : ∀ inUse, post inUse world) : id.isInUse.Meets me contract post world :=
  meets_bind.mpr (meets_world.mpr (meets_pure.mpr (h _)))

/-- Who is away from a gate stays so when background refresh is stopped. -/
private theorem staysAway_stopBackground :
    id.StaysAway me world (world.alterManager id TokenManager.stopBackground) := by
  intro haway
  rw [World.manager_alterManager]
  split
  · exact haway
  · exact haway

/-- Who is away from a gate stays so when its call is abandoned. -/
private theorem staysAway_abandon :
    id.StaysAway me world (world.alterManager id fun _ => (world.manager id).abandon me) := by
  intro haway
  rw [World.manager_alterManager]
  split
  · obtain ⟨heq, -⟩ | ⟨call, hcall, htask, -⟩ := (world.manager id).abandon_cases me
    · rwa [heq]
    · exact absurd htask (haway call hcall)
  · exact haway

/-- To give up background refresh is noticed at no gate. -/
private theorem meets_stopUnlessInUse :
    id.stopUnlessInUse.Meets me { write := id.StaysAway me } (fun _ _ => True) world := by
  have hstopped : id.stopBackground.Meets me { write := id.StaysAway me } (fun _ _ => True)
      world :=
    meets_bind.mpr (meets_world.mpr (meets_bind.mpr
      (meets_modify.mpr ⟨staysAway_stopBackground, meets_stop.mpr trivial⟩)))
  unfold ManagerId.stopUnlessInUse
  refine meets_bind.mpr (meets_isInUse fun inUse => ?_)
  split
  · exact hstopped
  · trivial

/-- To abandon a call keeps the task away from the gate that it is away from. -/
private theorem meets_abandon :
    id.abandon.Meets me { write := id.StaysAway me } (fun _ _ => True) world := by
  unfold ManagerId.abandon ManagerId.alterAndWake
  refine meets_bind.mpr (meets_me.mpr (meets_bind.mpr (meets_bind.mpr (meets_world.mpr
    (meets_bind.mpr (meets_modify.mpr ⟨staysAway_abandon, ?_⟩))))))
  split
  · exact meets_notify.mpr meets_stopUnlessInUse
  · exact meets_stopUnlessInUse

/-- To let a manager go keeps a task away from the gate that it is away from. -/
private theorem meets_disengage :
    id.disengage.Meets me { write := id.StaysAway me } (fun _ _ => True) world := by
  have hwrite : id.StaysAway me world (world.disengage id) := by
    intro haway
    rwa [World.manager_disengage]
  exact meets_bind.mpr (meets_modify.mpr ⟨hwrite, meets_stopUnlessInUse⟩)

/-- A task that breaks off does not arrive at the gate. -/
theorem Job.staysAway_cleanUp (me : TaskId) (job : Job) (schedule : Schedule) :
    (schedule.world :: schedule.passed me job.cleanUp).IsChain (job.manager.StaysAway me) := by
  have hmeets : job.cleanUp.Meets me { write := job.manager.StaysAway me } (fun _ _ => True)
      schedule.world := by
    cases job with
    | advisory id => exact meets_bind.mpr (meets_abandon.mono fun _ _ _ => meets_disengage)
    | background id => exact meets_abandon
    | round id => exact meets_abandon
  exact hmeets.turn.1

end BreaksOff

/-! ## The turns of a loop -/

namespace Schedule

variable {schedule after : Schedule} {id : ManagerId} {me : TaskId} {task : Task}

/-- What comes of a turn of a loop: once it has written, it is at the gate until its last write, and
a loop that has ended an attempt in this turn waits as it should. -/
structure LoopTurn (schedule : Schedule) (id : ManagerId) (me : TaskId) (worlds : List World)
    (result : Schedule × Turn (Option Job)) : Prop where
  there : worlds.IsChain fun world _ => ¬(world.manager id).IsAway me
  waits : ∀ rest, result.2 = .waiting rest →
    (∃ refresh : Activity (Except TokenError Token), rest = (refresh >>= fun _ => id.afterRefresh) ∧
        id.StaysUntil me refresh ∧ ¬(result.1.world.manager id).IsAway me) ∨
      rest = pure (some (.round id)) ∧ result.1.IsWoken me ∧
        ((∃ world ∈ schedule.world :: worlds, ¬(world.manager id).IsAway me) →
          result.1.IsPaced id me)
  goesOn : ∀ job, result.2 = .finished (some job) →
    job = .round id ∧ worlds = [] ∧ ¬result.1.world.IsCaller me

/-- A turn in which an attempt is under way is such a turn. -/
theorem Attempts.loopTurn {before : Schedule} {gate worlds : List World}
    {result : Schedule × Turn (Option Job)} (attempts : before.Attempts id me gate result)
    (there : worlds.IsChain fun world _ => ¬(world.manager id).IsAway me) :
    schedule.LoopTurn id me worlds result where
  there := there
  waits rest hrest := (attempts.waits rest hrest).imp_right
    (And.imp_right (And.imp_right fun hpaced _ => hpaced))
  goesOn job hjob := absurd (attempts.ends _ hjob) (by simp)

/-- The turn in which a loop waits for its first round. -/
private theorem loopTurn_awaitFirstRound (haway : ¬schedule.world.IsCaller me) :
    schedule.LoopTurn id me (schedule.passed me id.awaitFirstRound)
      (schedule.turn me id.awaitFirstRound) := by
  have hnever : ¬∃ world ∈ [schedule.world], ¬(world.manager id).IsAway me := by
    simp [World.isAway_of_not_isCaller haway]
  unfold ManagerId.awaitFirstRound ManagerId.backgroundWait
  cases hwait : (schedule.world.manager id).backgroundWait schedule.world.now with
  | error fault =>
    simp only [bind, Activity.bind, Activity.world, turn, passed, hwait, Activity.check]
    exact ⟨.nil, by simp, by simp⟩
  | ok wait =>
    simp only [bind, Activity.bind, Activity.world, turn, passed, hwait, Activity.check,
      Activity.pause]
    by_cases hzero : wait = Span.zero
    · rw [if_pos hzero, if_pos hzero]
      refine ⟨.nil, by simp [pure, turn], ?_⟩
      rintro job ⟨⟩
      exact ⟨rfl, rfl, haway⟩
    · rw [if_neg hzero, if_neg hzero]
      refine ⟨.nil, ?_, by simp⟩
      rintro _ ⟨⟩
      exact .inr ⟨rfl, .inr ⟨_, List.mem_append_right _ (List.mem_singleton_self _), rfl⟩,
        fun h => absurd h hnever⟩

/-- The turn of a loop. -/
theorem loopTurn_turn {rest : Activity (Option Job)} {purpose : Purpose}
    {post : Option Job → History → Prop} {history : History}
    (stage : id.LoopStage me schedule.world rest) (known : id < schedule.world.managers.length)
    (behaves : rest.Behaves ⟨me, purpose⟩ post history) (hnow : history.now = schedule.world)
    (hborn : me < schedule.fresh) (hready : me ∉ schedule.ready)
    (htimers : ∀ timer ∈ schedule.timers, timer.task ≠ me) :
    schedule.LoopTurn id me (schedule.passed me rest) (schedule.turn me rest) := by
  cases stage with
  | starts haway => exact loopTurn_awaitFirstRound haway
  | rests haway =>
    refine ⟨.nil, by simp [pure, turn], ?_⟩
    rintro job ⟨⟩
    exact ⟨rfl, rfl, haway⟩
  | due haway =>
    obtain ⟨-, hturn, hpassed⟩ | ⟨arrived, worlds, -, hpassed, hattempts⟩ :=
      attempts_backgroundRound known behaves hnow hborn hready htimers
    · rw [hturn, hpassed]
      exact ⟨.nil, by simp, by simp⟩
    · rw [hpassed]
      exact hattempts.loopTurn hattempts.there
  | attempts stays hthere =>
    have hattempts := attempts_turn stays hthere behaves hnow hborn hready htimers
    exact hattempts.loopTurn hattempts.there.tail

/-! ## The turns of its task -/

/-- What the turn of a loop leads to: an attempt begins with the first write or not at all, and once
one has ended, nothing more is written unless the loop is no more. -/
structure Paces (schedule : Schedule) (id : ManagerId) (me : TaskId) (worlds : List World)
    (after : Schedule) : Prop where
  begins : worlds.IsChain (id.StaysAway me)
  there : (∃ loop ∈ after.tasks, loop.id = me) →
    worlds.IsChain fun world _ => ¬(world.manager id).IsAway me
  stage : ∀ loop ∈ after.tasks, loop.id = me → loop.aborted = false →
    id.LoopStage me after.world loop.rest
  paced : (∃ world ∈ schedule.world :: worlds, ¬(world.manager id).IsAway me) →
    (after.world.manager id).IsAway me → ∀ loop ∈ after.tasks, loop.id = me →
      loop.aborted = false → loop.rest = pure (some (.round id)) ∧ ¬after.world.IsCaller me ∧
        after.IsPaced id me

/-- A task that is not aborted and has nothing left to do for its job is away from all gates. -/
theorem Orderly.not_isCaller {next : Option Job} (orderly : schedule.Orderly none)
    (resumable : schedule.Resumable none) (htask : task ∈ schedule.tasks)
    (haborted : task.aborted = false) (hwoken : schedule.IsWoken task.id)
    (hrest : task.rest = pure next) : ¬schedule.world.IsCaller task.id := by
  obtain ⟨history, hnow, hresumes⟩ := resumable task htask (by simp)
  have hfree := orderly.not_isWaiting htask hwoken haborted
  rw [← hnow] at hfree ⊢
  have hover := hresumes history (.refl history) hfree
  rw [hrest] at hover
  rintro ⟨place, hplace⟩
  cases place with
  | manager id =>
    obtain ⟨call, hcall, hid⟩ := List.mem_map.mp hplace
    exact hover.standing.managers id (by simp) call hcall hid
  | cache id => exact hover.standing.caches id (by simp) (by simp) hplace

/-- A task that is no more has no stage. -/
private theorem Paces.of_gone {worlds : List World} (begins : worlds.IsChain (id.StaysAway me))
    (gone : ∀ loop ∈ after.tasks, loop.id ≠ me) : schedule.Paces id me worlds after where
  begins := begins
  there := fun ⟨loop, hloop, hid⟩ => absurd hid (gone loop hloop)
  stage loop hloop hid := absurd hid (gone loop hloop)
  paced _ _ loop hloop hid := absurd hid (gone loop hloop)

/-- A task that is removed is gone. -/
private theorem gone_remove (schedule : Schedule) (me : TaskId) :
    ∀ loop ∈ (schedule.remove me).tasks, loop.id ≠ me := by
  intro loop hloop
  simpa using (List.mem_filter.mp hloop).2

/-- What is left for a task that is to go on there. -/
theorem rest_resumeAt {rest : Activity (Option Job)} {loop : Task}
    (hloop : loop ∈ (schedule.resumeAt me rest).tasks) (hid : loop.id = me) : loop.rest = rest := by
  obtain ⟨before, hbefore, rfl⟩ := List.mem_map.mp hloop
  split
  · rfl
  · next hne =>
    rw [if_neg hne] at hid
    exact absurd hid hne

/-- A loop keeps its pace when it goes on with something else. -/
private theorem IsPaced.resumeAt (paced : schedule.IsPaced id me) (rest : Activity (Option Job)) :
    (schedule.resumeAt me rest).IsPaced id me where
  restless := paced.restless
  asleep htoken := (paced.asleep htoken).imp_left fun ⟨loop, hloop, hid, haborted⟩ =>
    ⟨_, List.mem_map_of_mem hloop, by split <;> exact hid, by split <;> exact haborted⟩

/-- A loop that is aborted is no more after its turn, and does not arrive at the gate in it. -/
theorem turnOfTask_of_aborted (schedule : Schedule) (hjob : task.job = .background id)
    (haborted : task.aborted = true) :
    (∀ loop ∈ (schedule.turnOfTask task).tasks, loop.id ≠ task.id) ∧
      (schedule.world :: schedule.passedOfTask task).IsChain (id.StaysAway task.id) := by
  have hstays := Job.staysAway_cleanUp task.id task.job schedule
  simp only [passedOfTask, Schedule.turnOfTask, haborted, if_true]
  rw [hjob] at hstays ⊢
  exact ⟨gone_remove _ _, hstays⟩

/-- A turn after which the loop waits. -/
private theorem paces_of_waiting {next : Schedule} {worlds : List World}
    {rest : Activity (Option Job)}
    (turned : (schedule.resume me).LoopTurn id me worlds (next, .waiting rest))
    (orderly : (next.resumeAt me rest).Orderly none)
    (resumable : (next.resumeAt me rest).Resumable none)
    (begins : worlds.IsChain (id.StaysAway me)) :
    schedule.Paces id me worlds (next.resumeAt me rest) := by
  have hfree (loop : Task) (hloop : loop ∈ (next.resumeAt me rest).tasks) (hid : loop.id = me)
      (haborted : loop.aborted = false) (hwoken : next.IsWoken me)
      (hrest : rest = pure (some (.round id))) : ¬next.world.IsCaller me := by
    have hnone := orderly.not_isCaller resumable hloop haborted (hid ▸ hwoken)
      ((rest_resumeAt hloop hid).trans hrest)
    exact hid ▸ hnone
  refine ⟨begins, fun _ => turned.there, fun loop hloop hid haborted => ?_,
    fun hthere haway loop hloop hid haborted => ?_⟩
  · rw [rest_resumeAt hloop hid]
    obtain ⟨refresh, rfl, hstays, hgate⟩ | ⟨hrest, hwoken, -⟩ := turned.waits rest rfl
    · exact .attempts hstays hgate
    · rw [hrest]
      exact .rests (hfree loop hloop hid haborted hwoken hrest)
  · obtain ⟨-, -, -, hgate⟩ | ⟨hrest, hwoken, hpaced⟩ := turned.waits rest rfl
    · exact absurd haway hgate
    · exact ⟨(rest_resumeAt hloop hid).trans hrest,
        hfree loop hloop hid haborted hwoken hrest, (hpaced hthere).resumeAt rest⟩

/-- What the turn of a loop that can run leads to. -/
theorem paces_turnOfTask (orderly : schedule.Orderly none) (resumable : schedule.Resumable none)
    (htask : task ∈ schedule.tasks) (hjob : task.job = .background id)
    (hready : task.id ∈ schedule.ready) (haborted : task.aborted = false)
    (stage : id.LoopStage task.id schedule.world task.rest) :
    schedule.Paces id task.id ((schedule.resume task.id).passedOfTask task)
      ((schedule.resume task.id).turnOfTask task) := by
  obtain ⟨history, hnow, hresumes⟩ := resumable task htask (by simp)
  have hfree := orderly.not_isWaiting htask (.inl hready) haborted
  have hbehaves := hresumes history (.refl history) (hnow ▸ hfree)
  have hknown : id < (schedule.resume task.id).world.managers.length := by
    have h := orderly.known task htask
    rwa [hjob] at h
  have hturn : (schedule.resume task.id).LoopTurn id task.id
      (passed task.id task.rest (schedule.resume task.id))
      (turn task.id task.rest (schedule.resume task.id)) :=
    loopTurn_turn stage hknown hbehaves hnow (orderly.born task htask) (by simp [resume])
      (by simp [resume])
  have hbegins := hturn.there.imp (S := id.StaysAway task.id)
    fun _ _ hthere haway => absurd haway hthere
  have hlast := passed_getLastD task.id task.rest (schedule.resume task.id)
  have hmoves := orderly.turnOfTask resumable htask (.inl hready)
  have horderly := hmoves.orderly
  have hresumable := hmoves.resumable
  simp only [Schedule.turnOfTask, haborted, Bool.false_eq_true, if_false] at horderly hresumable
  simp only [passedOfTask, Schedule.turnOfTask, haborted, Bool.false_eq_true, if_false]
  rcases heq : (schedule.resume task.id).turn task.id task.rest with ⟨next, ending⟩
  rw [heq] at hturn horderly hresumable hlast
  cases ending with
  | failed fault =>
    have hstays := Job.staysAway_cleanUp task.id task.job next
    rw [hjob] at hstays ⊢
    refine .of_gone (List.isChain_append.mpr ⟨hbegins, hstays.tail, ?_⟩) (gone_remove _ _)
    intro world hworld after hafter
    rw [List.getLastD_eq_getLast?, hworld] at hlast
    obtain rfl : world = next.world := hlast
    exact hstays.rel_head? hafter
  | waiting rest =>
    rw [List.append_nil]
    exact paces_of_waiting hturn horderly hresumable hbegins
  | finished successor =>
    cases successor with
    | none =>
      rw [List.append_nil]
      exact .of_gone hbegins (gone_remove _ _)
    | some job =>
      obtain ⟨rfl, hnone, haway⟩ := hturn.goesOn job rfl
      rw [hnone] at hlast ⊢
      refine ⟨.nil, fun _ => .nil, fun loop hloop hid _ => ?_, fun hthere => ?_⟩
      · have hmem : loop ∈ (next.resumeAt task.id id.backgroundRound).tasks := hloop
        rw [rest_resumeAt hmem hid]
        exact .due haway
      · obtain ⟨world, hworld, hthere⟩ := hthere
        obtain rfl := List.mem_singleton.mp hworld
        rw [← hlast] at haway
        exact absurd (World.isAway_of_not_isCaller haway) hthere

/-- A loop that has waited long enough goes on with the next round at once. -/
theorem turnOfTask_of_rests (schedule : Schedule) (haborted : task.aborted = false)
    (hrest : task.rest = pure (some (.round id))) :
    schedule.passedOfTask task = [] ∧ schedule.turnOfTask task =
      { schedule.resumeAt task.id id.backgroundRound with ready := task.id :: schedule.ready } := by
  simp only [passedOfTask, Schedule.turnOfTask, haborted, Bool.false_eq_true, if_false, hrest]
  exact ⟨rfl, rfl⟩

/-- A loop begins its next attempt with the first write of a round, unless nobody uses the manager
any more. -/
theorem passedOfTask_of_due (orderly : schedule.Orderly none) (resumable : schedule.Resumable none)
    (htask : task ∈ schedule.tasks) (hjob : task.job = .background id)
    (hready : task.id ∈ schedule.ready) (haborted : task.aborted = false)
    (hrest : task.rest = id.backgroundRound) :
    (schedule.world.managed id).dropped = true ∧
        (∀ loop ∈ ((schedule.resume task.id).turnOfTask task).tasks, loop.id ≠ task.id) ∨
      ∃ arrived more, (schedule.resume task.id).passedOfTask task = arrived :: more ∧
        ¬(arrived.manager id).IsAway task.id := by
  obtain ⟨history, hnow, hresumes⟩ := resumable task htask (by simp)
  have hfree := orderly.not_isWaiting htask (.inl hready) haborted
  have hbehaves := hresumes history (.refl history) (hnow ▸ hfree)
  have hknown : id < (schedule.resume task.id).world.managers.length := by
    have h := orderly.known task htask
    rwa [hjob] at h
  rw [hrest] at hbehaves
  simp only [passedOfTask, Schedule.turnOfTask, haborted, Bool.false_eq_true, if_false, hrest]
  obtain ⟨hdropped, hturn, -⟩ | ⟨arrived, worlds, hthere, hpassed, -⟩ :=
    attempts_backgroundRound hknown hbehaves hnow (orderly.born task htask) (by simp [resume])
      (by simp [resume])
  · rw [hturn]
    exact .inl ⟨hdropped, gone_remove _ _⟩
  · rw [hpassed]
    exact .inr ⟨arrived, _, rfl, hthere⟩

end Schedule

end CloudSession
