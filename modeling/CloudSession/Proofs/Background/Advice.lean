import CloudSession.Proofs.Background.Frame
import CloudSession.Proofs.Background.Tended
import CloudSession.Proofs.Interplay.Remaining
import CloudSession.Proofs.TokenManager.Faults

/-!
# Refreshes that are advised

A manager notes that a refresh which was advised is under way, and how many tasks that follow advice
use it. In an `Advised` schedule there is at most one task that follows advice about a manager, it is
the one that uses the manager, and the note says whether there is one, unless such a task has failed.
All turns keep it so: what obeys the frame laws touches none of this, advice is noted in the turn that
starts the task, and the task takes the note back in its last turn.
-/

namespace CloudSession

/-- It is unclear whether the cached token of a manager is to be refreshed, since the advisory refresh
time cannot be computed. -/
def World.IsUnclear (world : World) (id : ManagerId) : Prop :=
  ∃ token, (world.manager id).token = some token ∧
    (world.manager id).policy.advisoryTime token = .error .overflow

/-- If a follower of advice cannot tell whether the token will do, it is unclear whether it is to be
refreshed. -/
theorem World.isUnclear_of_usable {world : World} {id : ManagerId}
    (h : (world.manager id).usable? .followAdvice world.now = .error .overflow) :
    world.IsUnclear id := by
  unfold TokenManager.usable? at h
  cases htoken : (world.manager id).token with
  | none => simp [htoken] at h
  | some token =>
    refine ⟨token, htoken, ?_⟩
    cases htime : (world.manager id).policy.advisoryTime token with
    | error fault => rfl
    | ok time => simp [htoken, TokenManager.serves, htime, bind, Except.bind, pure, Except.pure] at h

/-- So many tasks follow advice about a manager: so many use it, and it notes whether there is one,
unless such a task has failed, which it may have if the manager is `broken`. -/
structure Managed.Counts (entry : Managed) (broken : Prop) (advisers : Nat) : Prop where
  users : entry.followers = advisers
  noted : advisers = entry.manager.advisoryInFlight.toNat ∨
    broken ∧ entry.manager.advisoryInFlight = true ∧ advisers = 0

/-- Only the note and the users count. -/
theorem Managed.Counts.of_eq {entry after : Managed} {broken : Prop} {advisers : Nat}
    (counts : entry.Counts broken advisers)
    (hadvisory : after.manager.advisoryInFlight = entry.manager.advisoryInFlight)
    (hfollowers : after.followers = entry.followers) : after.Counts broken advisers where
  users := hfollowers.trans counts.users
  noted := by
    rw [hadvisory]
    exact counts.noted

/-- While there is such a task, it is noted. -/
theorem Managed.Counts.inFlight {entry : Managed} {broken : Prop} {advisers : Nat}
    (counts : entry.Counts broken advisers) (h : 0 < advisers) :
    entry.manager.advisoryInFlight = true := by
  rcases counts.noted with hnoted | ⟨-, hflag, -⟩
  · by_contra hflag
    rw [hnoted, Bool.eq_false_iff.mpr hflag] at h
    cases h
  · exact hflag

/-- A change of some manager that leaves the note alone. -/
theorem Managed.Counts.alterManager {world : World} {id other : ManagerId} {broken : Prop}
    {advisers : Nat} {f : TokenManager → TokenManager}
    (counts : (world.managed other).Counts broken advisers)
    (h : ∀ manager, (f manager).advisoryInFlight = manager.advisoryInFlight) :
    ((world.alterManager id f).managed other).Counts broken advisers := by
  refine counts.of_eq ?_ (World.followers_alterManager world id other f)
  change ((world.alterManager id f).manager other).advisoryInFlight =
    (world.manager other).advisoryInFlight
  rw [World.manager_alterManager]
  split
  · exact h _
  · rfl

/-- There is one task at most. -/
theorem Managed.Counts.le_one {entry : Managed} {broken : Prop} {advisers : Nat}
    (counts : entry.Counts broken advisers) : advisers ≤ 1 := by
  have hflag := Bool.toNat_le entry.manager.advisoryInFlight
  rcases counts.noted with h | ⟨-, -, h⟩
  · exact h.trans_le hflag
  · exact h.trans_le (Nat.zero_le 1)

namespace Schedule

variable {schedule after : Schedule} {broken worse : ManagerId → Prop} {id : ManagerId}
  {task : TaskId} {job : Job}

/-- How many tasks follow advice about a manager. -/
def advisers (schedule : Schedule) (id : ManagerId) : Nat :=
  schedule.tasks.countP (·.job = .advisory id)

/-- What holds of the tasks that follow advice, if those about managers that are `broken` may have
failed. No loop and no task that is aborted is among them. -/
structure Advised (broken : ManagerId → Prop) (schedule : Schedule) : Prop where
  distinct : (schedule.tasks.map Task.id).Nodup
  born : ∀ task ∈ schedule.tasks, task.id < schedule.fresh
  loops : ∀ id loop, (schedule.world.manager id).background = some loop →
    loop < schedule.fresh ∧
      ∀ task ∈ schedule.tasks, task.id = loop → ∀ other, task.job ≠ .advisory other
  aborted : ∀ task ∈ schedule.tasks, task.aborted = true → ∀ other, task.job ≠ .advisory other
  counted : ∀ id < schedule.world.managers.length,
    (schedule.world.managed id).Counts (broken id) (schedule.advisers id)

/-- A task that is started is one more that follows the advice, if that is its job. -/
theorem advisers_spawn (schedule : Schedule) (job : Job) (id : ManagerId) :
    (schedule.spawn job).advisers id =
      schedule.advisers id + if job = .advisory id then 1 else 0 := by
  simp [advisers, spawn, List.countP_append]

/-- Without a task, there is one less that follows its advice. -/
theorem advisers_remove (distinct : (schedule.tasks.map Task.id).Nodup) {gone : Task}
    (hgone : gone ∈ schedule.tasks) (id : ManagerId) :
    schedule.advisers id =
      (schedule.remove gone.id).advisers id + if gone.job = .advisory id then 1 else 0 := by
  obtain ⟨before, later, htasks⟩ := List.append_of_mem hgone
  rw [htasks, List.map_append, List.map_cons] at distinct
  obtain ⟨-, hlater, hapart⟩ := List.nodup_append.mp distinct
  have hbefore : before.filter (·.id ≠ gone.id) = before :=
    List.filter_eq_self.mpr fun task htask => decide_eq_true
      (hapart _ (List.mem_map_of_mem htask) _ List.mem_cons_self)
  have hafter : later.filter (·.id ≠ gone.id) = later :=
    List.filter_eq_self.mpr fun task htask => decide_eq_true fun hid =>
      (List.nodup_cons.mp hlater).1 (hid ▸ List.mem_map_of_mem htask)
  rw [advisers, advisers, remove, htasks, List.filter_append, List.filter_cons_of_neg (by simp),
    hbefore, hafter, List.countP_append, List.countP_append, List.countP_cons, Nat.add_assoc]
  simp only [decide_eq_true_eq]

/-- A task is aborted if a manager knows it as its loop. -/
def markLoop (world : World) (id : ManagerId) (task : Task) : Task :=
  if (world.manager id).background = some task.id then { task with aborted := true } else task

/-- When a manager gives up its loop, the task of the loop is marked as aborted, and no other. -/
theorem giveUp_tasks (schedule : Schedule) (id : ManagerId) :
    (schedule.giveUp id).tasks = schedule.tasks.map (markLoop schedule.world id) := by
  have hkept (h : ∀ task ∈ schedule.tasks, (schedule.world.manager id).background ≠ some task.id) :
      schedule.tasks.map (markLoop schedule.world id) = schedule.tasks :=
    (List.map_congr_left fun task htask => if_neg (h task htask)).trans (List.map_id _)
  unfold giveUp
  split
  · next hnone => exact (hkept fun _ _ => by simp [hnone]).symm
  · next loop hloop =>
    unfold abort
    dsimp only
    split
    · rw [wake_tasks]
      refine List.map_congr_left fun task _ => ?_
      simp only [markLoop, hloop, Option.some.injEq, eq_comm]
    · next hgone =>
      refine (hkept fun task htask hid => hgone (List.any_eq_true.mpr ⟨task, htask, ?_⟩)).symm
      simpa [hloop, eq_comm] using hid

/-- To give up a loop leaves the next name as it is. -/
theorem giveUp_fresh (schedule : Schedule) (id : ManagerId) :
    (schedule.giveUp id).fresh = schedule.fresh := by
  unfold giveUp
  split
  · rfl
  · unfold abort
    dsimp only
    split
    · rw [wake_fresh]
    · rfl

namespace Advised

/-- More managers may count as broken. -/
theorem mono (advised : schedule.Advised broken) (h : ∀ id, broken id → worse id) :
    schedule.Advised worse :=
  { advised with
    counted := fun id known =>
      { users := (advised.counted id known).users
        noted := (advised.counted id known).noted.imp_right (And.imp_left (h id)) } }

/-- A change that concerns neither the tasks nor what managers know of them. -/
theorem of_tasks_eq (advised : schedule.Advised broken) (htasks : after.tasks = schedule.tasks)
    (hfresh : schedule.fresh ≤ after.fresh)
    (hcount : after.world.managers.length = schedule.world.managers.length)
    (hadvisory : ∀ id, (after.world.manager id).advisoryInFlight =
      (schedule.world.manager id).advisoryInFlight)
    (hbackground : ∀ id, (after.world.manager id).background =
      (schedule.world.manager id).background)
    (hfollowers : ∀ id, (after.world.managed id).followers =
      (schedule.world.managed id).followers) : after.Advised broken where
  distinct := htasks ▸ advised.distinct
  born task htask := Nat.lt_of_lt_of_le (advised.born task (htasks ▸ htask)) hfresh
  loops id loop hloop := by
    obtain ⟨hborn, hnever⟩ := advised.loops id loop ((hbackground id).symm.trans hloop)
    exact ⟨Nat.lt_of_lt_of_le hborn hfresh, htasks ▸ hnever⟩
  aborted := htasks ▸ advised.aborted
  counted id known := by
    rw [advisers, htasks]
    exact (advised.counted id (hcount ▸ known)).of_eq (hadvisory id) (hfollowers id)

/-- A change that concerns neither the tasks nor the managers. -/
theorem of_managers_eq (advised : schedule.Advised broken) (htasks : after.tasks = schedule.tasks)
    (hfresh : schedule.fresh ≤ after.fresh)
    (hmanagers : after.world.managers = schedule.world.managers) : after.Advised broken := by
  have hmanaged (id : ManagerId) : after.world.managed id = schedule.world.managed id := by
    rw [World.managed, World.managed, hmanagers]
  exact advised.of_tasks_eq htasks hfresh (congrArg List.length hmanagers)
    (fun id => congrArg (·.manager.advisoryInFlight) (hmanaged id))
    (fun id => congrArg (·.manager.background) (hmanaged id))
    fun id => congrArg Managed.followers (hmanaged id)

/-- A task gets its turn. -/
theorem resume (advised : schedule.Advised broken) (id : TaskId) :
    (schedule.resume id).Advised broken :=
  advised.of_managers_eq rfl (Nat.le_refl _) rfl

/-- A caller takes a name. -/
theorem takeName (advised : schedule.Advised broken) : schedule.takeName.Advised broken :=
  advised.of_managers_eq rfl (Nat.le_succ _) rfl

/-- Time passes. -/
theorem elapse (advised : schedule.Advised broken) (elapsed : Span) :
    (schedule.elapse elapsed).Advised broken := by
  obtain ⟨htasks, hfresh, -⟩ := elapse_keeps schedule elapsed
  exact advised.of_managers_eq htasks (Nat.le_of_eq hfresh.symm) (by rw [elapse_world])

/-- Something happens outside. -/
theorem outside {world : World} (advised : schedule.Advised broken)
    (outside : schedule.world.Outside world) : ({ schedule with world } : Schedule).Advised broken :=
  advised.of_managers_eq rfl (Nat.le_refl _) outside.managers

/-- A task that is started has a new name. -/
private theorem distinct_spawn (advised : schedule.Advised broken) (job : Job) :
    ((schedule.spawn job).tasks.map Task.id).Nodup := by
  rw [spawn, List.map_append]
  refine List.nodup_append.mpr ⟨advised.distinct, by simp, ?_⟩
  intro a ha b hb
  obtain ⟨before, hbefore, rfl⟩ := List.mem_map.mp ha
  obtain rfl : b = schedule.fresh := by simpa using hb
  exact Nat.ne_of_lt (advised.born before hbefore)

/-- After a task has been started, all tasks are older than the next name. -/
private theorem born_spawn (advised : schedule.Advised broken) (job : Job) :
    ∀ task ∈ (schedule.spawn job).tasks, task.id < schedule.fresh + 1 := by
  intro task htask
  rcases List.mem_append.mp htask with hbefore | hnew
  · exact Nat.lt_succ_of_lt (advised.born task hbefore)
  · rw [List.mem_singleton.mp hnew]
    exact Nat.lt_succ_self _

/-- A task that has just been started is not aborted. -/
private theorem aborted_spawn (advised : schedule.Advised broken) (job : Job) :
    ∀ task ∈ (schedule.spawn job).tasks, task.aborted = true →
      ∀ other, task.job ≠ .advisory other := by
  intro task htask haborted
  rcases List.mem_append.mp htask with hbefore | hnew
  · exact advised.aborted task hbefore haborted
  · rw [List.mem_singleton.mp hnew] at haborted
    cases haborted

/-- Advice is noted in the turn that starts the task. -/
theorem advise (advised : schedule.Advised broken) {manager : TokenManager}
    (hadvise : (schedule.world.manager id).advise = some manager) :
    ({ schedule with
        world := (schedule.world.alterManager id fun _ => manager).engage id }.spawn
          (.advisory id)).Advised broken := by
  have hmanager := TokenManager.eq_of_advise hadvise
  have hflag := TokenManager.advisoryInFlight_of_advise hadvise
  have hlength : ((schedule.world.alterManager id fun _ => manager).engage id).managers.length =
      schedule.world.managers.length := by simp [World.engage, World.alterManager]
  refine ⟨advised.distinct_spawn _, advised.born_spawn _, ?_, advised.aborted_spawn _, ?_⟩
  · intro other loop hloop
    have hbefore : (schedule.world.manager other).background = some loop := by
      rw [← hloop, spawn, World.manager_engage, World.manager_alterManager]
      split
      · next hid => rw [hmanager, hid.1]
      · rfl
    obtain ⟨hborn, hnever⟩ := advised.loops other loop hbefore
    refine ⟨Nat.lt_succ_of_lt hborn, fun task htask hid => ?_⟩
    rcases List.mem_append.mp htask with hold | hnew
    · exact hnever task hold hid
    · rw [List.mem_singleton.mp hnew] at hid
      exact absurd hid (Nat.ne_of_gt hborn)
  · intro other hknown
    have hknown' : other < schedule.world.managers.length := hlength ▸ hknown
    have hcounted := advised.counted other hknown'
    have hengaged : other < (schedule.world.alterManager id fun _ => manager).managers.length := by
      simpa [World.alterManager] using hknown'
    have hnote : (({ schedule with
        world := (schedule.world.alterManager id fun _ => manager).engage id }.spawn
          (.advisory id)).world.managed other).manager =
        if id = other ∧ id < schedule.world.managers.length then manager
          else schedule.world.manager other :=
      (World.manager_engage _ id other).trans (World.manager_alterManager _ id other _)
    have husers := World.followers_engage id hengaged
    rw [World.followers_alterManager, hcounted.users] at husers
    rw [advisers_spawn]
    simp only [Job.advisory.injEq]
    refine ⟨husers, ?_⟩
    rw [hnote]
    by_cases heq : id = other
    · subst heq
      have hnoted := hcounted.noted
      rw [show (schedule.world.managed id).manager.advisoryInFlight = false from hflag] at hnoted
      obtain hzero | ⟨-, ⟨⟩, -⟩ := hnoted
      rw [if_pos rfl, if_pos ⟨rfl, hknown'⟩, hmanager]
      exact .inl (congrArg (· + 1) hzero)
    · rw [if_neg heq, if_neg fun h => heq h.1]
      exact hcounted.noted

/-- The tasks keep their names and jobs, and those that are aborted in the meantime follow no advice. -/
theorem of_map (advised : schedule.Advised broken) (f : Task → Task)
    (htasks : after.tasks = schedule.tasks.map f) (hfresh : after.fresh = schedule.fresh)
    (hworld : after.world = schedule.world) (hid : ∀ task, (f task).id = task.id)
    (hjob : ∀ task, (f task).job = task.job)
    (haborted : ∀ task ∈ schedule.tasks, (f task).aborted = true →
      task.aborted = true ∨ ∀ other, task.job ≠ .advisory other) : after.Advised broken where
  distinct := by
    rw [htasks, List.map_map, show Task.id ∘ f = Task.id from funext hid]
    exact advised.distinct
  born task htask := by
    rw [htasks] at htask
    obtain ⟨before, hbefore, rfl⟩ := List.mem_map.mp htask
    rw [hid, hfresh]
    exact advised.born before hbefore
  loops id loop hloop := by
    rw [hworld] at hloop
    obtain ⟨hborn, hnever⟩ := advised.loops id loop hloop
    refine ⟨hfresh ▸ hborn, fun task htask hloop => ?_⟩
    rw [htasks] at htask
    obtain ⟨before, hbefore, rfl⟩ := List.mem_map.mp htask
    rw [hid] at hloop
    rw [hjob]
    exact hnever before hbefore hloop
  aborted task htask h := by
    rw [htasks] at htask
    obtain ⟨before, hbefore, rfl⟩ := List.mem_map.mp htask
    rw [hjob]
    exact (haborted before hbefore h).elim (advised.aborted before hbefore) fun hnever => hnever
  counted id := by
    have hsame : after.advisers id = schedule.advisers id := by
      rw [advisers, htasks, List.countP_map, advisers]
      refine List.countP_congr fun task _ => ?_
      rw [Function.comp_apply, hjob]
    rw [hworld, hsame]
    exact advised.counted id

/-- A manager gives background refresh up, and at most its loop is aborted. -/
theorem of_giveUp (advised : schedule.Advised broken) (id : ManagerId)
    (htasks : after.tasks = schedule.tasks.map (markLoop schedule.world id))
    (hfresh : after.fresh = schedule.fresh)
    (hworld : after.world = schedule.world.alterManager id TokenManager.stopBackground) :
    after.Advised broken := by
  have hstopped : ({ schedule with world := after.world } : Schedule).Advised broken := by
    refine ⟨advised.distinct, advised.born, ?_, advised.aborted, ?_⟩
    · intro other loop hloop
      rw [hworld, World.manager_alterManager] at hloop
      split at hloop
      · cases hloop
      · exact advised.loops other loop hloop
    · intro other hknown
      have hknown' : other < schedule.world.managers.length := by
        simpa [hworld, World.alterManager] using hknown
      rw [hworld]
      exact (advised.counted other hknown').alterManager fun _ => rfl
  refine hstopped.of_map _ htasks hfresh rfl (fun _ => by unfold markLoop; split <;> rfl)
    (fun _ => by unfold markLoop; split <;> rfl) fun task htask haborted => ?_
  unfold markLoop at haborted
  split at haborted
  · next hloop => exact .inr ((advised.loops id task.id hloop).2 task htask rfl)
  · exact .inl haborted

/-- To give up the loop of a manager keeps what holds of the tasks that follow advice. -/
theorem giveUp (advised : schedule.Advised broken) (id : ManagerId) :
    (schedule.giveUp id).Advised broken :=
  advised.of_giveUp id (giveUp_tasks schedule id) (giveUp_fresh schedule id) (giveUp_world schedule id)

/-- Background refresh starts as a task that follows no advice. -/
theorem start (advised : schedule.Advised broken) (id : ManagerId) :
    ({ schedule.spawn (.background id) with
        world := schedule.world.alterManager id (·.startBackground schedule.fresh) } :
      Schedule).Advised broken := by
  refine ⟨advised.distinct_spawn _, advised.born_spawn _, ?_, advised.aborted_spawn _, ?_⟩
  · intro other loop hloop
    rw [World.manager_alterManager] at hloop
    split at hloop
    · obtain rfl := Option.some.inj hloop
      refine ⟨Nat.lt_succ_self _, fun task htask hid => ?_⟩
      rcases List.mem_append.mp htask with hold | hnew
      · exact absurd hid (Nat.ne_of_lt (advised.born task hold))
      · rw [List.mem_singleton.mp hnew]
        simp
    · obtain ⟨hborn, hnever⟩ := advised.loops other loop hloop
      refine ⟨Nat.lt_succ_of_lt hborn, fun task htask hid => ?_⟩
      rcases List.mem_append.mp htask with hold | hnew
      · exact hnever task hold hid
      · rw [List.mem_singleton.mp hnew]
        simp
  · intro other hknown
    have hknown' : other < schedule.world.managers.length := by
      simpa [World.alterManager] using hknown
    have hadvisers : ({ schedule.spawn (.background id) with
        world := schedule.world.alterManager id (·.startBackground schedule.fresh) } :
          Schedule).advisers other = schedule.advisers other := by
      have hspawned := advisers_spawn schedule (.background id) other
      rwa [if_neg (by simp), Nat.add_zero] at hspawned
    rw [hadvisers]
    exact (advised.counted other hknown').alterManager fun _ => rfl

/-- A task is no more, and the world may have changed. What remains to be counted are the tasks that
follow advice. -/
private theorem of_remove (advised : schedule.Advised broken) (task : TaskId) {world : World}
    (hbackground : ∀ id, (world.manager id).background = (schedule.world.manager id).background)
    (hcounted : ∀ id < world.managers.length,
      (world.managed id).Counts (broken id) ((schedule.remove task).advisers id)) :
    (({ schedule with world } : Schedule).remove task).Advised broken where
  distinct := (List.filter_sublist.map Task.id).nodup advised.distinct
  born other hother := advised.born other (List.mem_of_mem_filter hother)
  loops id loop hloop := by
    obtain ⟨hborn, hnever⟩ := advised.loops id loop ((hbackground id).symm.trans hloop)
    exact ⟨hborn, fun other hother => hnever other (List.mem_of_mem_filter hother)⟩
  aborted other hother := advised.aborted other (List.mem_of_mem_filter hother)
  counted := hcounted

/-- A task that follows no advice is no more. -/
theorem remove (advised : schedule.Advised broken)
    (h : ∀ other ∈ schedule.tasks, other.id = task → ∀ id, other.job ≠ .advisory id) :
    (schedule.remove task).Advised broken := by
  refine advised.of_remove task (fun _ => rfl) fun id known => ?_
  have hsame : (schedule.remove task).advisers id = schedule.advisers id := by
    rw [advisers, Schedule.remove, List.countP_filter, advisers]
    refine List.countP_congr fun other hother => ?_
    have hnever := h other hother
    simp only [Bool.and_eq_true, decide_eq_true_eq]
    exact ⟨And.left, fun hjob => ⟨hjob, fun hid => hnever hid id hjob⟩⟩
  rw [hsame]
  exact advised.counted id known

/-- A task is somewhere else with its job. -/
theorem resumeAt (advised : schedule.Advised broken) (task : TaskId)
    (rest : Activity (Option Job)) : (schedule.resumeAt task rest).Advised broken := by
  refine advised.of_map _ rfl rfl rfl (fun _ => by split <;> rfl) (fun _ => by split <;> rfl)
    fun other _ haborted => .inl ?_
  split at haborted <;> exact haborted

/-- A task that follows advice is done with the manager and is no more. The note is taken back, unless
the task has failed. -/
private theorem letGo (advised : schedule.Advised broken) {task : Task}
    (htask : task ∈ schedule.tasks) (hjob : task.job = .advisory id) {world : World}
    (hlength : world.managers.length = schedule.world.managers.length)
    (hbackground : ∀ id, (world.manager id).background = (schedule.world.manager id).background)
    (hfollowers : ∀ id, (world.managed id).followers = (schedule.world.managed id).followers)
    (hothers : ∀ other, id ≠ other →
      (world.manager other).advisoryInFlight = (schedule.world.manager other).advisoryInFlight)
    (hnote : id < world.managers.length → (world.manager id).advisoryInFlight = false ∨
      broken id ∧ (world.manager id).advisoryInFlight = true) :
    (({ schedule with world := world.disengage id } : Schedule).remove task.id).Advised broken := by
  refine advised.of_remove task.id (fun other => ?_) fun other known => ?_
  · rw [World.manager_disengage, hbackground]
  have hknown : other < world.managers.length := by simpa [World.disengage] using known
  have hcounted := advised.counted other (hlength ▸ hknown)
  have hless := advisers_remove advised.distinct htask other
  have husers := World.followers_disengage id hknown
  have hsame : ((world.disengage id).managed other).manager = world.manager other :=
    World.manager_disengage world id other
  rw [hfollowers, hcounted.users] at husers
  simp only [hjob, Job.advisory.injEq] at hless
  refine ⟨by omega, ?_⟩
  rw [hsame]
  by_cases heq : id = other
  · subst heq
    rw [if_pos rfl] at hless
    have hone := hcounted.le_one
    have hnone : (schedule.remove task.id).advisers id = 0 := by omega
    rw [hnone]
    rcases hnote hknown with hflag | ⟨hbroken, hflag⟩
    · exact .inl (by rw [hflag]; rfl)
    · exact .inr ⟨hbroken, hflag, rfl⟩
  · rw [if_neg heq, Nat.add_zero] at hless
    rw [← hless, hothers other heq]
    exact hcounted.noted

/-- The advice is followed, and the task that has followed it is no more. -/
theorem conclude (advised : schedule.Advised broken) {task : Task} (htask : task ∈ schedule.tasks)
    (hjob : task.job = .advisory id) :
    (({ schedule with
        world := (schedule.world.alterManager id TokenManager.adviceFollowed).disengage id } :
      Schedule).remove task.id).Advised broken := by
  have hlength : (schedule.world.alterManager id TokenManager.adviceFollowed).managers.length =
      schedule.world.managers.length := by simp [World.alterManager]
  refine advised.letGo htask hjob hlength (fun other => ?_)
    (fun other => World.followers_alterManager _ id other _) (fun other hne => ?_) fun known => ?_
  · rw [World.manager_alterManager]
    split <;> rfl
  · rw [World.manager_alterManager, if_neg fun h => hne h.1]
  · rw [World.manager_alterManager, if_pos ⟨rfl, hlength ▸ known⟩]
    exact .inl rfl

/-- A task that follows advice is no more, though it has not followed it: it must have failed. -/
theorem lose (advised : schedule.Advised broken) {task : Task} (htask : task ∈ schedule.tasks)
    (hjob : task.job = .advisory id) (hbroken : broken id) :
    (({ schedule with world := schedule.world.disengage id } : Schedule).remove task.id).Advised
      broken := by
  have hpos : 0 < schedule.advisers id :=
    List.countP_pos_iff.mpr ⟨task, htask, decide_eq_true hjob⟩
  exact advised.letGo htask hjob rfl (fun _ => rfl) (fun _ => rfl) (fun _ _ => rfl)
    fun known => .inr ⟨hbroken, (advised.counted id known).inFlight hpos⟩

/-- If background refresh is given up in the turn in which a task ends, this changes nothing. -/
private theorem of_disengaged (task : TaskId) {world : World}
    (advised : (({ schedule with world } : Schedule).remove task).Advised broken)
    (hcases : after = { schedule with world } ∨
      after = Schedule.giveUp { schedule with world } id) : (after.remove task).Advised broken := by
  rcases hcases with rfl | rfl
  · exact advised
  · refine advised.of_giveUp id ?_ (giveUp_fresh _ id) (giveUp_world _ id)
    have hid (other : Task) : (markLoop world id other).id = other.id := by
      unfold markLoop
      split <;> rfl
    simp only [Schedule.remove, giveUp_tasks, List.filter_map, Function.comp_def, hid]

/-- That a schedule stays advised is a frame law. -/
theorem isFrame (broken : ManagerId → Prop) :
    TurnLaw.IsFrame fun schedule _ after => schedule.Advised broken → after.Advised broken where
  refl _ advised := advised
  trans first second advised := second (first advised)
  wake schedule task advised := advised.of_managers_eq (wake_tasks _ _)
    (Nat.le_of_eq (wake_fresh _ _).symm) (by rw [wake_world])
  sleep _ _ advised := advised.of_managers_eq rfl (Nat.le_refl _) rfl
  write _ _ minor advised := advised.of_tasks_eq rfl (Nat.le_refl _) minor.managerCount minor.advisory
    minor.background minor.followers
  advise _ _ _ hadvise advised := advised.advise hadvise
  adviseInVain _ _ _ _ advised := advised
  giveUp _ id advised := advised.giveUp id
  start _ id _ advised := advised.start id

end Advised

end Schedule

open Activity

/-! ## Turns -/

/-- The advice is followed: what a task does last that has followed it. -/
def ManagerId.adviceOver (id : ManagerId) : Activity (Option Job) := do
  Activity.modify fun world => world.alterManager id TokenManager.adviceFollowed
  id.disengage
  return none

/-- A task that follows advice refreshes the token if that is still advised, and then takes the note
back. -/
theorem Job.activity_advisory (id : ManagerId) :
    (Job.advisory id).activity = id.refreshFor .followAdvice >>= fun _ => id.adviceOver := by
  unfold Job.activity ManagerId.followAdvice ManagerId.adviceOver
  dsimp only
  rw [Activity.bind_assoc]
  rfl

/-- The task obeys the frame laws, until it has followed the advice if that is its job. It fails only
where it is unclear whether the advice is followed already. -/
def Job.Heeds (me : TaskId) (job : Job) (activity : Activity (Option Job)) : Prop :=
  match job with
  | .advisory id => ∃ refresh : Activity (Except TokenError Token),
      activity = (refresh >>= fun _ => id.adviceOver) ∧
        (∀ law : TurnLaw, law.IsFrame → refresh.Obeys law) ∧
          refresh.FailsOnlyWhere me (·.IsUnclear id)
  | _ => ∀ law : TurnLaw, law.IsFrame → activity.Obeys law

/-- Once the advice is followed, the task comes to its end in the same turn, and at most background
refresh is given up. -/
theorem Schedule.turn_adviceOver (me : TaskId) (id : ManagerId) (schedule : Schedule) :
    ∃ after, turn me id.adviceOver schedule = (after, .finished none) ∧
      (after = { schedule with
          world := (schedule.world.alterManager id TokenManager.adviceFollowed).disengage id } ∨
        after = Schedule.giveUp { schedule with
          world := (schedule.world.alterManager id TokenManager.adviceFollowed).disengage id } id) := by
  let followed : Schedule :=
    { schedule with world := schedule.world.alterManager id TokenManager.adviceFollowed }
  have hover : turn me id.adviceOver schedule =
      turn me (id.disengage >>= fun _ => pure none) followed := rfl
  obtain ⟨after, hturn, hcases⟩ := turn_disengage me id followed
  exact ⟨after, hover.trans (turn_bind_of_finished hturn _), hcases⟩

/-- A task that follows advice breaks off in a single turn: it goes away from the gate and is done
with the manager, and at most background refresh is given up. -/
theorem Schedule.turn_cleanUp_advisory (me : TaskId) (id : ManagerId) (schedule : Schedule) :
    ∃ left after, turn me id.abandon schedule = (left, .finished ()) ∧
      turn me (Job.advisory id).cleanUp schedule = (after, .finished ()) ∧
        (after = { left with world := left.world.disengage id } ∨
          after = Schedule.giveUp { left with world := left.world.disengage id } id) := by
  obtain ⟨left, hleft⟩ := turn_abandon_finished me id schedule
  obtain ⟨after, hturn, hcases⟩ := turn_disengage me id left
  exact ⟨left, after, hleft, (turn_bind_of_finished hleft _).trans hturn, hcases⟩

section Heeds

variable {me : TaskId} {job : Job} {activity rest : Activity (Option Job)} {schedule : Schedule}

/-- Every task begins as it should. -/
theorem Job.heeds_activity (me : TaskId) (job : Job) : job.Heeds me job.activity := by
  cases job with
  | advisory id =>
    exact ⟨_, Job.activity_advisory id, fun _ frame => ManagerId.obeys_refreshFor frame id _,
      ManagerId.failsOnlyWhere_refreshFor fun _ => World.isUnclear_of_usable⟩
  | background id => exact fun _ frame => Job.obeys_activity frame (by simp)
  | round id => exact fun _ frame => Job.obeys_activity frame (by simp)

/-- After a turn that does not end it, a task goes on as it should. -/
theorem Job.Heeds.waiting (heeds : job.Heeds me activity)
    (hwaiting : (schedule.turn me activity).2 = .waiting rest) : job.Heeds me rest := by
  cases job with
  | advisory id =>
    obtain ⟨refresh, rfl, hobeys, hfails⟩ := heeds
    rw [Schedule.turn_bind] at hwaiting
    rcases heq : schedule.turn me refresh with ⟨next, ending⟩
    rw [heq] at hwaiting
    cases ending with
    | finished value =>
      obtain ⟨after, hover, -⟩ := Schedule.turn_adviceOver me id next
      dsimp only at hwaiting
      rw [hover] at hwaiting
      cases hwaiting
    | failed fault => cases hwaiting
    | waiting between =>
      have hbetween : (schedule.turn me refresh).2 = .waiting between := by rw [heq]
      exact ⟨between, (Turn.waiting.inj hwaiting).symm,
        fun law frame => (hobeys law frame).waiting hbetween, hfails.waiting hbetween⟩
  | background id => exact fun law frame => (heeds law frame).waiting hwaiting
  | round id => exact fun law frame => (heeds law frame).waiting hwaiting

/-- Every other task obeys every frame law. -/
theorem Job.Heeds.obeys (heeds : job.Heeds me activity) (h : ∀ id, job ≠ .advisory id)
    {law : TurnLaw} (frame : law.IsFrame) : activity.Obeys law := by
  cases job with
  | advisory id => exact absurd rfl (h id)
  | background id => exact heeds law frame
  | round id => exact heeds law frame

/-- What a task leads to and what it obeys last as long as the task does. -/
theorem Job.lasting_heeds :
    Job.Lasting fun me job activity => job.Leads me activity ∧ job.Heeds me activity :=
  .of_rounds Job.heeds_activity Job.Heeds.waiting fun me job hloop => by
    have hround : (Job.round job.manager).Heeds me job.manager.backgroundRound :=
      Job.heeds_activity me _
    cases job with
    | advisory id => exact absurd rfl (hloop id)
    | background id => exact hround
    | round id => exact hround

end Heeds

namespace Schedule.Advised

variable {schedule : Schedule} {broken : ManagerId → Prop} {task : Task}

/-- A caller or a loop has its turn, or a task breaks off. -/
theorem turn {α : Type} (advised : schedule.Advised broken) {activity : Activity α}
    (h : ∀ law : TurnLaw, law.IsFrame → activity.Obeys law) (me : TaskId) :
    (schedule.turn me activity).1.Advised broken :=
  (h _ (isFrame broken)).turn me schedule advised

/-- A task that follows no advice breaks off. -/
theorem breakOff (advised : schedule.Advised broken) (hloop : ∀ id, task.job ≠ .advisory id)
    (h : ∀ other ∈ schedule.tasks, other.id = task.id → ∀ id, other.job ≠ .advisory id)
    (born : task.id < schedule.fresh) : (schedule.breakOff task).Advised broken := by
  refine (advised.turn (fun law frame => Job.obeys_cleanUp frame hloop) task.id).remove
    fun later hlater hid => ?_
  rcases (advances_turn task.id task.job.cleanUp schedule).origin later hlater with
    ⟨before, hbefore, hbecomes⟩ | ⟨hnew, -⟩
  · rw [hbecomes.job_eq]
    exact h before hbefore (hbecomes.id_eq.symm.trans hid)
  · exact absurd born (Nat.not_lt_of_le (hid ▸ hnew))

/-- A loop has its turn. -/
private theorem turnOfLoop (advised : schedule.Advised broken) (htask : task ∈ schedule.tasks)
    (hloop : ∀ id, task.job ≠ .advisory id) (heeds : task.job.Heeds task.id task.rest) :
    (schedule.turnOfTask task).Advised broken := by
  have hadvances := advances_turn task.id task.rest schedule
  have hnext := advised.turn (fun law frame => heeds.obeys hloop frame) task.id
  have hsame (other : Task) (hother : other ∈ schedule.tasks) (hid : other.id = task.id) :
      ∀ id, other.job ≠ .advisory id :=
    List.inj_on_of_nodup_map advised.distinct hother htask hid ▸ hloop
  have hlater : ∀ other ∈ (Schedule.turn task.id task.rest schedule).1.tasks, other.id = task.id →
      ∀ id, other.job ≠ .advisory id := fun other hother hid =>
    hadvances.job_eq advised.distinct (advised.born task htask) htask hother hid ▸ hloop
  have hborn := Nat.lt_of_lt_of_le (advised.born task htask) hadvances.fresh
  unfold Schedule.turnOfTask
  split
  · exact advised.breakOff hloop hsame (advised.born task htask)
  · rcases heq : Schedule.turn task.id task.rest schedule with ⟨next, ending⟩
    rw [heq] at hnext hlater hborn
    match ending with
    | .waiting rest => exact hnext.resumeAt task.id rest
    | .failed _ => exact hnext.breakOff hloop hlater hborn
    | .finished none => exact hnext.remove hlater
    | .finished (some job) =>
      exact (hnext.resumeAt task.id job.activity).of_managers_eq rfl (Nat.le_refl _) rfl

/-- The advice is followed, and the task that has followed it comes to its end. -/
private theorem finish (advised : schedule.Advised broken) (htask : task ∈ schedule.tasks)
    {id : ManagerId} (hjob : task.job = .advisory id) {after : Schedule}
    (hafter : schedule.turn task.id id.adviceOver = (after, .finished none)) :
    (after.remove task.id).Advised broken := by
  obtain ⟨after', hover, hcases⟩ := turn_adviceOver task.id id schedule
  obtain rfl : after' = after := congrArg Prod.fst (hover.symm.trans hafter)
  exact of_disengaged task.id (advised.conclude htask hjob) hcases

/-- A task that follows advice fails and breaks off. -/
private theorem fail (advised : schedule.Advised broken) (htask : task ∈ schedule.tasks)
    {id : ManagerId} (hjob : task.job = .advisory id) (hbroken : broken id) :
    (schedule.breakOff task).Advised broken := by
  obtain ⟨left, after, hleft, hturn, hcases⟩ := turn_cleanUp_advisory task.id id schedule
  have hleaves := advised.turn (fun law frame => ManagerId.obeys_abandon frame id) task.id
  obtain ⟨later, hlater, hbecomes⟩ := (advances_turn task.id id.abandon schedule).kept task htask
  rw [hleft] at hleaves hlater
  have hlost := hleaves.lose hlater (hbecomes.job_eq.trans hjob) hbroken
  rw [hbecomes.id_eq] at hlost
  rw [Schedule.breakOff, hjob, hturn]
  exact of_disengaged task.id hlost hcases

/-- A task that follows advice has its turn. If it fails, it is unclear whether the advice is followed
already. -/
private theorem turnOfAdviser (advised : schedule.Advised broken) (htask : task ∈ schedule.tasks)
    {id : ManagerId} (hjob : task.job = .advisory id) (halive : task.aborted = false)
    (heeds : task.job.Heeds task.id task.rest)
    (hbroken : (schedule.turn task.id task.rest).1.world.IsUnclear id → broken id) :
    (schedule.turnOfTask task).Advised broken := by
  rw [hjob] at heeds
  obtain ⟨refresh, hrest, hobeys, hfails⟩ := heeds
  have hnext := advised.turn hobeys task.id
  have hfailed : ∀ fault, (Schedule.turn task.id refresh schedule).2 = .failed fault →
      (Schedule.turn task.id refresh schedule).1.world.IsUnclear id := fun _ => hfails.failed
  obtain ⟨later, hlater, hbecomes⟩ :=
    (advances_turn task.id refresh schedule).kept task htask
  have hjob' := hbecomes.job_eq.trans hjob
  unfold Schedule.turnOfTask
  rw [if_neg (by simp [halive]), hrest, turn_bind]
  rw [hrest, turn_bind] at hbroken
  rcases heq : Schedule.turn task.id refresh schedule with ⟨next, ending⟩
  rw [heq] at hnext hfailed hlater hbroken
  match ending with
  | .finished value =>
    obtain ⟨after, hover, -⟩ := turn_adviceOver task.id id next
    simp only [hover]
    rw [← hbecomes.id_eq] at hover ⊢
    exact hnext.finish hlater hjob' hover
  | .failed fault =>
    have hfails := hnext.fail hlater hjob' (hbroken (hfailed fault rfl))
    rw [Schedule.breakOff, hbecomes.id_eq, hjob', ← hjob] at hfails
    exact hfails
  | .waiting rest => exact hnext.resumeAt task.id _

/-- The turn of a task. -/
theorem turnOfTask (advised : schedule.Advised broken) (htask : task ∈ schedule.tasks)
    (heeds : task.job.Heeds task.id task.rest)
    (hbroken : task.aborted = false → ∀ id,
      (schedule.turn task.id task.rest).1.world.IsUnclear id → broken id) :
    (schedule.turnOfTask task).Advised broken := by
  by_cases hadviser : ∃ id, task.job = .advisory id
  · obtain ⟨id, hjob⟩ := hadviser
    have halive : task.aborted = false := by
      by_contra haborted
      exact advised.aborted task htask (by simpa using haborted) id hjob
    exact advised.turnOfAdviser htask hjob halive heeds (hbroken halive id)
  · exact advised.turnOfLoop htask (not_exists.mp hadviser) heeds

end Schedule.Advised

end CloudSession
