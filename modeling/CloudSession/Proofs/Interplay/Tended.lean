import CloudSession.Proofs.Background.Tended
import CloudSession.Proofs.Interplay.Story

/-!
# Background refresh in a run

In every run, a loop that is alive is the one that its manager knows of, and a task that is aborted
can run. A step starts a loop only if somebody asks for background refresh.
-/

namespace CloudSession

namespace Schedule

variable {schedule : Schedule} {id : ManagerId} {me : TaskId}

/-- A caller comes and takes the next name. -/
def takeName (schedule : Schedule) : Schedule :=
  { schedule with fresh := schedule.fresh + 1 }

/-- Whoever asks for background refresh is done within a turn. -/
theorem turn_start (me : TaskId) (id : ManagerId) (schedule : Schedule) :
    turn me (Operation.startBackground id).activity schedule =
      ((turn me id.startBackground schedule).1, .finished .done) := by
  obtain ⟨after, hturn, -⟩ := turn_startBackground_cases me id schedule
  rw [hturn]
  exact turn_map hturn _

end Schedule

namespace Interplay

variable {interplay next : Interplay} {client : Client} {rest : Activity Reply}

/-- What holds of background refresh in a run. -/
structure Tended (interplay : Interplay) : Prop where
  schedule : interplay.schedule.Tended none
  clients : ∀ client ∈ interplay.clients, ∀ rest, client.state = .waiting rest →
    rest.StartsNoLoop

/-- Callers that see the world change are where they were. -/
private theorem Tended.pass {worlds : List World} {schedule : Schedule}
    (tended : interplay.Tended) (actor : Option RefreshCall) (h : schedule.Tended none) :
    (interplay.pass actor worlds schedule).Tended where
  schedule := h
  clients client hclient rest hrest := by
    obtain ⟨before, hbefore, rfl⟩ := List.mem_map.mp hclient
    exact tended.clients before hbefore rest (Client.state_watch ▸ hrest)

/-- The turn of a caller, after which it is at something that starts no loop. -/
private theorem Tended.act
    (clients : ∀ other ∈ interplay.clients, other.task ≠ client.task → ∀ rest,
      other.state = .waiting rest → rest.StartsNoLoop)
    (schedule : (interplay.schedule.turn client.task rest).1.Tended none)
    (waiting : ∀ later, (interplay.schedule.turn client.task rest).2 = .waiting later →
      later.StartsNoLoop) : (interplay.act client rest).Tended where
  schedule := schedule
  clients other hother later hlater := by
    obtain ⟨watched, hwatched, rfl⟩ := List.mem_map.mp hother
    split at hlater
    · exact waiting later hlater
    · next hne =>
      obtain ⟨before, hbefore, rfl⟩ := List.mem_map.mp hwatched
      rw [Client.task_watch] at hne
      rw [Client.state_watch] at hlater
      exact clients before hbefore hne later hlater

/-- A step starts a loop only if somebody asks for background refresh. -/
theorem Step.startsNoLoop_or (step : Step interplay next) (tended : interplay.Tended) :
    interplay.schedule.StartsNoLoop next.schedule ∨
      ∃ id < interplay.schedule.world.managers.length,
        next = interplay.call (.startBackground id) := by
  have hresume (id : TaskId) :
      interplay.schedule.StartsNoLoop (interplay.schedule.resume id) :=
    .of_tasks_eq rfl fun _ => rfl
  cases step with
  | @turnOfClient client rest hclient hstate _ =>
    have hturn := (tended.clients client hclient rest hstate).turn client.task
      (interplay.schedule.resume client.task)
    exact .inl ((hresume client.task).trans hturn)
  | @turnOfTask task htask _ =>
    exact .inl ((hresume task.id).trans
      (Schedule.startsNoLoop_turnOfTask _ (tended.schedule.rests task htask)))
  | elapse _ => exact .inl (Schedule.startsNoLoop_elapse _ _)
  | disturb outside _ =>
    exact .inl (.of_tasks_eq rfl fun id => congrArg TokenManager.background (outside.manager_eq id))
  | @call operation fits =>
    by_cases hstart : ∃ id, operation = .startBackground id
    · obtain ⟨id, rfl⟩ := hstart
      exact .inr ⟨id, fits, rfl⟩
    · have hstarts := operation.startsNoLoop (not_exists.mp hstart)
      have hcame : interplay.schedule.StartsNoLoop interplay.schedule.takeName :=
        .of_tasks_eq rfl fun _ => rfl
      exact .inl (hcame.trans (hstarts.turn interplay.schedule.fresh _))
  | @drop client _ _ =>
    have hturn := (startsNoLoop_release interplay.schedule.world.managers.length
      interplay.schedule.world.caches.length).turn client.task
        (interplay.schedule.resume client.task)
    exact .inl (((hresume client.task).trans hturn).trans (.remove _ client.task))

/-- A caller is no task, so that it is not aborted either. -/
private theorem Tended.resumeClient (tended : interplay.Tended) (sound : interplay.Sound none)
    (hclient : client ∈ interplay.clients) :
    (interplay.schedule.resume client.task).Tended none :=
  tended.schedule.resume_of_not_aborted fun task htask hid =>
    absurd hid (sound.apart client hclient task htask)

/-- Somebody asks for an operation. -/
theorem Tended.call {operation : Operation} (tended : interplay.Tended)
    (fits : operation.Fits interplay.schedule.world) : (interplay.call operation).Tended := by
  have hcame : interplay.schedule.takeName.Tended none :=
    ⟨tended.schedule.tracked, tended.schedule.rests, tended.schedule.urgent⟩
  have hclients (client : Client) : ∀ other ∈ interplay.clients ++ [client],
      other.task ≠ client.task → ∀ rest, other.state = .waiting rest → rest.StartsNoLoop := by
    intro other hother hne
    rcases List.mem_append.mp hother with hbefore | hnew
    · exact tended.clients other hbefore
    · exact absurd (congrArg Client.task (List.mem_singleton.mp hnew)) hne
  by_cases hstart : ∃ id, operation = .startBackground id
  · obtain ⟨id, rfl⟩ := hstart
    refine .act (hclients _) ?_ ?_
    · rw [Schedule.turn_start]
      exact hcame.turn_startBackground fits _
    · rw [Schedule.turn_start]
      rintro _ ⟨⟩
  · have hstarts := operation.startsNoLoop (not_exists.mp hstart)
    exact .act (hclients _) (hcame.turn hstarts _) fun _ => hstarts.waiting

/-- Every step keeps what holds of background refresh. -/
theorem Step.tended (step : Step interplay next) (sound : interplay.Sound none)
    (tended : interplay.Tended) : next.Tended := by
  cases step with
  | @turnOfClient client rest hclient hstate _ =>
    have hstarts := tended.clients client hclient rest hstate
    exact .act (fun other hother _ => tended.clients other hother)
      ((tended.resumeClient sound hclient).turn hstarts client.task) fun _ => hstarts.waiting
  | @turnOfTask task htask _ =>
    exact tended.pass _ (tended.schedule.turnOfTask sound.orderly.distinct htask)
  | elapse _ => exact tended.pass _ (tended.schedule.elapse _)
  | disturb outside _ =>
    refine tended.pass _
      (tended.schedule.advance (Schedule.advances_of_tasks_eq rfl rfl fun _ h => h) ?_)
    intro id task alive
    rw [← tended.schedule.tracked id task alive]
    exact congrArg TokenManager.background (outside.manager_eq id)
  | call fits => exact tended.call fits
  | @drop client hclient _ =>
    have hturn := (tended.resumeClient sound hclient).turn
      (startsNoLoop_release interplay.schedule.world.managers.length
        interplay.schedule.world.caches.length) client.task
    refine ⟨(hturn.excuse _).remove, fun other hother => ?_⟩
    exact (tended.pass client.call hturn).clients other (List.mem_of_mem_filter hother)

/-- Runs stay tended. -/
theorem Runs.tended {first last : Interplay} (runs : Runs first last) (sound : first.Sound none)
    (tended : first.Tended) : last.Tended := by
  induction runs with
  | refl => exact tended
  | step runs step ih => exact step.tended (runs.sound sound) ih

/-- Every point of a run is tended. -/
theorem Reachable.tended (reachable : interplay.Reachable) : interplay.Tended := by
  obtain ⟨world, untouched, runs⟩ := reachable
  refine runs.tended (sound_start untouched) ⟨⟨?_, ?_, ?_⟩, ?_⟩
  · rintro id task ⟨loop, hloop, -⟩
    cases hloop
  all_goals simp [start]

end Interplay

end CloudSession
