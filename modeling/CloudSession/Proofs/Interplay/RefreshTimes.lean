import CloudSession.Proofs.Interplay.Remaining
import CloudSession.Proofs.Interplay.Story
import CloudSession.Proofs.TokenManager.DefaultTimes

/-!
# The default refresh times in a run

With the default thresholds, the refresh times of a token are in order and can be computed unless it
lives too long. In every run, tasks and callers who want a new token do not fail on account of the
refresh times, and callers who ask for the token, or whether it has expired, fail only if a token that
lives too long has been cached meanwhile.
-/

namespace CloudSession

open Activity

/-- What holds of the world where an operation fails. -/
def Operation.Fault (world : World) : Operation → Prop
  | .getToken id | .askExpired id =>
    (world.manager id).policy.IsDefault → (world.manager id).HoldsTooLong
  | .refreshToken _ => False
  | _ => True

/-- Whoever asks for the token, or whether it has expired, fails only on account of a token that lives
too long. -/
theorem Operation.failsOnlyWhere (me : TaskId) (operation : Operation) :
    operation.activity.FailsOnlyWhere me operation.Fault := by
  cases operation with
  | getToken id =>
    have hget : id.get.FailsOnlyWhere me (Operation.getToken id).Fault := by
      refine ManagerId.failsOnlyWhere_get (fun world hphase default => ?_)
        fun world husable default => ?_
      · obtain ⟨token, hcached, hlong, -⟩ := (TokenManager.phase_eq_error_iff default).mp hphase
        exact ⟨token, hcached, hlong⟩
      · exact (TokenManager.usable?_avoidStale_eq_error_iff default).mp husable
    exact hget.map _
  | refreshToken id => exact (ManagerId.failsOnlyWhere_refresh id).map _
  | askExpired id =>
    have hask : id.isExpired.FailsOnlyWhere me (Operation.askExpired id).Fault :=
      ManagerId.failsOnlyWhere_isExpired fun world hexpired default =>
        (TokenManager.isExpired_eq_error_iff default).mp hexpired
    exact hask.map _
  | _ => exact fun world => meets_nothing me _ world

/-- With the default thresholds, no task fails. -/
theorem Job.failsOnlyWhere (me : TaskId) (job : Job) :
    job.activity.FailsOnlyWhere me fun world => ¬(world.manager job.manager).policy.IsDefault :=
  Job.failsOnlyWhere_activity
    (fun _ husable default => TokenManager.usable?_followAdvice_ne_error default husable)
    fun _ hwait default => TokenManager.backgroundWait_ne_error default hwait

/-- That a caller fails nowhere but where its operation may lasts as long as the caller does. -/
theorem Operation.lasting_failsOnlyWhere :
    Operation.Lasting (fun me operation activity => activity.FailsOnlyWhere me operation.Fault)
      fun operation world => operation.Fault world where
  starts := Operation.failsOnlyWhere
  waits h hwaiting := h.waiting hwaiting
  fails h hfailed := h.failed hfailed

/-- That a task fails only where the thresholds are not the default ones lasts as long as the task
does. -/
theorem Job.lasting_failsOnlyWhere :
    Job.Lasting fun me job activity => job.Leads me activity ∧
      activity.FailsOnlyWhere me fun world => ¬(world.manager job.manager).policy.IsDefault :=
  .of_rounds Job.failsOnlyWhere (fun h hwaiting => h.waiting hwaiting) fun me job _ =>
    Job.failsOnlyWhere me (.round job.manager)

namespace Interplay

variable {interplay : Interplay} {id : ManagerId}

/-- The thresholds of a manager have been the same all the time. -/
theorem Sound.policy_eq_of_mem {acting : Option TaskId} (sound : interplay.Sound acting)
    (id : ManagerId) {moment : Moment} (hmoment : moment ∈ interplay.story) :
    (moment.world.manager id).policy = (interplay.schedule.world.manager id).policy := by
  obtain ⟨n, hn⟩ := List.mem_iff_getElem?.mp hmoment
  obtain ⟨last, hlast, hworld⟩ := Option.map_eq_some_iff.mp sound.present
  rw [List.getLast?_eq_getElem?] at hlast
  have hle : n ≤ interplay.story.length - 1 :=
    Nat.le_sub_one_of_lt (List.getElem?_eq_some_iff.mp hn).1
  rw [← hworld]
  exact ((sound.precedes hn hlast hle).policies id).symm

/-- What holds of the refresh times of a manager. -/
structure KeepsTimes (interplay : Interplay) (id : ManagerId) : Prop where
  advisory : ∀ token, ∃ time,
    (interplay.schedule.world.manager id).policy.advisoryTime token = .ok time ∧
      time.nanos ≤ token.expirationTime.nanos
  ordered : ∀ token, (interplay.schedule.world.manager id).policy.AreOrdered token ↔
    ¬token.LivesTooLong
  expired : ∀ now, (interplay.schedule.world.manager id).isExpired now = .error .overflow ↔
    (interplay.schedule.world.manager id).HoldsTooLong
  phase : ∀ now, (interplay.schedule.world.manager id).phase now = .error .overflow ↔
    ∃ token, (interplay.schedule.world.manager id).token = some token ∧ token.LivesTooLong ∧
      now.IsPast ((interplay.schedule.world.manager id).policy.advisoryTime token)
  wait : ∀ now, (interplay.schedule.world.manager id).backgroundWait now ≠ .error .overflow
  callers : ∀ client ∈ interplay.clients,
    client.operation = .getToken id ∨ client.operation = .askExpired id →
      ∀ failure, client.state = .failed failure →
        ∃ moment, interplay.During client moment ∧ (moment.world.manager id).HoldsTooLong
  refreshers : ∀ client ∈ interplay.clients, client.operation = .refreshToken id →
    ∀ failure, client.state ≠ .failed failure
  tasks : ∀ task ∈ interplay.schedule.tasks, task.job.manager = id → task.aborted = false →
    task.id ∈ interplay.schedule.ready → ∀ failure,
      ((interplay.schedule.resume task.id).turn task.id task.rest).2 ≠ .failed failure

/-- A task that has its turn does not fail. -/
private theorem turn_ne_failed (reachable : interplay.Reachable) {task : Task}
    (htask : task ∈ interplay.schedule.tasks) (haborted : task.aborted = false)
    (hready : task.id ∈ interplay.schedule.ready)
    (default : (interplay.schedule.world.manager task.job.manager).policy.IsDefault)
    (failure : Overflow) :
    ((interplay.schedule.resume task.id).turn task.id task.rest).2 ≠ .failed failure := by
  intro hfailed
  have sound := reachable.sound
  have hfault := (reachable.eachIs Job.lasting_failsOnlyWhere task htask).2.failed hfailed
  have hdeeds :=
    (Schedule.Orderly.turnOfTask sound.orderly sound.resumable htask (.inl hready)).deeds
  simp only [Schedule.passedOfTask, haborted, Bool.false_eq_true, if_false] at hdeeds
  rw [World.Deeds, ← List.cons_append] at hdeeds
  have hprecedes := World.Deeds.precedes hdeeds.left_of_append
  rw [Schedule.passed_getLastD] at hprecedes
  rw [hprecedes.policies] at hfault
  exact hfault default

/-- In every run, the refresh times of a manager with the default thresholds are in order and can be
computed, just as far as its tokens do not live too long. -/
theorem Reachable.keepsTimes (reachable : interplay.Reachable)
    (default : (interplay.schedule.world.manager id).policy.IsDefault) :
    interplay.KeepsTimes id where
  advisory token := ⟨_, default.advisoryTime_eq token, by dsimp only; omega⟩
  ordered _ := default.areOrdered_iff
  expired _ := TokenManager.isExpired_eq_error_iff default
  phase _ := TokenManager.phase_eq_error_iff default
  wait _ := TokenManager.backgroundWait_ne_error default
  callers client hclient hoperation failure hfailed := by
    have hfault := reachable.isAt Operation.lasting_failsOnlyWhere client hclient
    unfold Client.IsAt at hfault
    rw [hfailed] at hfault
    obtain ⟨moment, during, hmoment⟩ :=
      reachable.sound.during_of_seen hclient client.history.now_mem_seen
    refine ⟨moment, during, ?_⟩
    rw [← reachable.sound.policy_eq_of_mem id during.mem] at default
    rw [← hmoment] at hfault
    rcases hoperation with hoperation | hoperation <;>
      · rw [hoperation] at hfault
        exact hfault default
  refreshers client hclient hoperation failure hfailed := by
    have hfault := reachable.isAt Operation.lasting_failsOnlyWhere client hclient
    unfold Client.IsAt at hfault
    rwa [hfailed, hoperation] at hfault
  tasks task htask hjob haborted hready :=
    turn_ne_failed reachable htask haborted hready (hjob ▸ default)

/-- A token with the longest lifetime there is. -/
def endlessToken : Token :=
  .issued "token-1" "" "Bearer" Int64.maxValue .epoch

/-- A token with the longest lifetime there is, which is handed out; then somebody asks whether it has
expired. -/
def handedOutForever : Interplay :=
  ((start (.solo {} [{ token := fun _ => .ok endlessToken }])).call (.getToken 0)).call
    (.askExpired 0)

/-- A token that lives too long is handed out, its refresh times are out of order, and whoever asks
if it has expired fails. -/
theorem handedOutForever_keepsTimes :
    handedOutForever.KeepsTimes 0 ∧
      ¬(handedOutForever.schedule.world.manager 0).policy.AreOrdered endlessToken ∧
      ∃ client ∈ handedOutForever.clients, client.operation = .askExpired 0 ∧
        client.state = .failed .overflow ∧
        ∃ moment, handedOutForever.During client moment ∧
          (moment.world.manager 0).HoldsTooLong := by
  have reachable : handedOutForever.Reachable := by
    refine ⟨_, World.untouched_solo _ _, .step (.step (.refl _) (.call ?_)) (.call ?_)⟩
    · exact Nat.zero_lt_one
    · exact Nat.zero_lt_one
  have default : (handedOutForever.schedule.world.manager 0).policy.IsDefault := ⟨rfl, rfl⟩
  have hkeeps : handedOutForever.KeepsTimes 0 := reachable.keepsTimes default
  obtain ⟨client, hlast, hoperation, hstate⟩ :
      ∃ client, handedOutForever.clients.getLast? = some client ∧
        client.operation = .askExpired 0 ∧ client.state = .failed .overflow :=
    ⟨_, rfl, rfl, rfl⟩
  have hclient := List.mem_of_getLast? hlast
  have hlong : endlessToken.LivesTooLong := by
    unfold Token.LivesTooLong
    decide +kernel
  exact ⟨hkeeps, fun hordered => (hkeeps.ordered _).mp hordered hlong, client, hclient, hoperation,
    hstate, hkeeps.callers client hclient (.inr hoperation) _ hstate⟩

end Interplay

end CloudSession
