import CloudSession.Proofs.Activity.Contract
import CloudSession.Proofs.Background.Frame
import CloudSession.Proofs.Interplay.Tended

/-!
# What is left to do

A property of what is left to do is lasting if it holds where each job and each operation begins, and
again of whatever a turn leaves over. In every run, what is left for the tasks and the callers has
each lasting property.
-/

namespace CloudSession

/-- A property that holds of what is left for a task, however far it is with its job. -/
structure Job.Lasting (P : TaskId → Job → Activity (Option Job) → Prop) : Prop where
  starts : ∀ me job, P me job job.activity
  waits : ∀ {me job activity rest} {schedule : Schedule}, P me job activity →
    (schedule.turn me activity).2 = .waiting rest → P me job rest
  goesOn : ∀ {me job activity following} {schedule : Schedule}, P me job activity →
    (schedule.turn me activity).2 = .finished (some following) → P me job following.activity

/-- The task comes to its end, or it goes on with the next round of its loop. -/
def Job.Leads (me : TaskId) (job : Job) (activity : Activity (Option Job)) : Prop :=
  ∀ world, activity.Meets me {} (fun next _ => ∀ following, next = some following →
    following = .round job.manager ∧ ∀ id, job ≠ .advisory id) world

section Leads

open Activity

variable {me : TaskId} {job : Job} {activity rest : Activity (Option Job)} {schedule : Schedule}

/-- After a turn that does not end it, a task leads to the same. -/
theorem Job.Leads.waiting (h : job.Leads me activity)
    (hwaiting : (schedule.turn me activity).2 = .waiting rest) : job.Leads me rest := by
  have hturn := (h schedule.world).turn.2
  rw [hwaiting] at hturn
  exact fun later => hturn.2 later trivial

/-- A task is followed by the next round of its loop, if at all, and one that follows advice by
nothing. -/
theorem Job.Leads.finished {following : Job} (h : job.Leads me activity)
    (hfinished : (schedule.turn me activity).2 = .finished (some following)) :
    following = .round job.manager ∧ ∀ id, job ≠ .advisory id := by
  have hturn := (h schedule.world).turn.2
  rw [hfinished] at hturn
  exact hturn following rfl

/-- Whatever is done first, what counts is what is done last. -/
theorem Job.leads_bind {α : Type} (first : Activity α) {second : α → Activity (Option Job)}
    (h : ∀ value, job.Leads me (second value)) : job.Leads me (first >>= second) :=
  fun world => meets_bind.mpr ((meets_nothing me first world).mono fun value later _ => h value later)

/-- A task may come to its end with nothing to follow. -/
theorem Job.leads_none : job.Leads me (pure none) := fun _ _ h => (nomatch h)

/-- A task that does not follow advice may be followed by the next round. -/
theorem Job.leads_round (h : ∀ id, job ≠ .advisory id) :
    job.Leads me (pure (some (.round job.manager))) :=
  fun _ _ hfollowing => ⟨(Option.some.inj hfollowing).symm, h⟩

/-- The rounds of a loop lead to one another. -/
theorem Job.leads_backgroundRound (h : ∀ id, job ≠ .advisory id) :
    job.Leads me job.manager.backgroundRound := by
  unfold ManagerId.backgroundRound
  refine leads_bind _ fun inUse => ?_
  split
  · exact leads_none
  · refine leads_bind _ fun _ => leads_bind _ fun inUse => ?_
    split
    · exact leads_none
    · refine leads_bind _ fun wait => ?_
      split
      · exact leads_bind _ fun _ => leads_round h
      · exact leads_bind _ fun _ => leads_round h

/-- What a task has to do leads to what it should. -/
theorem Job.leads_activity (me : TaskId) (job : Job) : job.Leads me job.activity := by
  cases job with
  | advisory id => exact leads_bind _ fun _ => leads_none
  | background id => exact leads_bind _ fun _ => leads_bind _ fun _ => leads_round (by simp)
  | round id => exact leads_backgroundRound (by simp)

/-- A property of what is left for tasks is lasting if the rounds of a loop have it. -/
theorem Job.Lasting.of_rounds {P : TaskId → Job → Activity (Option Job) → Prop}
    (starts : ∀ me job, P me job job.activity)
    (waits : ∀ {me job activity rest} {schedule : Schedule}, P me job activity →
      (schedule.turn me activity).2 = .waiting rest → P me job rest)
    (again : ∀ me job, (∀ id, job ≠ .advisory id) → P me job job.manager.backgroundRound) :
    Job.Lasting fun me job activity => job.Leads me activity ∧ P me job activity where
  starts me job := ⟨job.leads_activity me, starts me job⟩
  waits h hwaiting := ⟨h.1.waiting hwaiting, waits h.2 hwaiting⟩
  goesOn h hfinished := by
    obtain ⟨rfl, hloop⟩ := h.1.finished hfinished
    exact ⟨leads_backgroundRound hloop, again _ _ hloop⟩

end Leads

/-- A property that holds of what is left for a caller, however far it is with its operation, and what
then holds of the world if the caller fails. -/
structure Operation.Lasting (P : TaskId → Operation → Activity Reply → Prop)
    (fault : Operation → World → Prop) : Prop where
  starts : ∀ me operation, P me operation operation.activity
  waits : ∀ {me operation activity rest} {schedule : Schedule}, P me operation activity →
    (schedule.turn me activity).2 = .waiting rest → P me operation rest
  fails : ∀ {me operation activity failure} {schedule : Schedule}, P me operation activity →
    (schedule.turn me activity).2 = .failed failure →
      fault operation (schedule.turn me activity).1.world

/-- Whatever is left for a caller obeys every frame law. -/
theorem Operation.lasting_obeys :
    Operation.Lasting (fun _ _ activity => ∀ law : TurnLaw, law.IsFrame → activity.Obeys law)
      fun _ _ => True where
  starts _ operation _ frame := operation.obeys frame
  waits h hwaiting law frame := (h law frame).waiting hwaiting
  fails _ _ := trivial

namespace Schedule

variable {schedule after : Schedule} {task : Task}
  {P : TaskId → Job → Activity (Option Job) → Prop}

/-- What is left for each task has a property. -/
def EachIs (P : TaskId → Job → Activity (Option Job) → Prop) (schedule : Schedule) : Prop :=
  ∀ task ∈ schedule.tasks, P task.id task.job task.rest

namespace EachIs

/-- What lasts of each task lasts when the schedule advances. -/
theorem advance (lasting : Job.Lasting P) (each : schedule.EachIs P)
    (advances : schedule.Advances after) : after.EachIs P := by
  intro later hlater
  rcases advances.origin later hlater with ⟨before, hbefore, hbecomes⟩ | ⟨-, hrest⟩
  · rw [hbecomes.id_eq, hbecomes.job_eq, hbecomes.rest_eq]
    exact each before hbefore
  · exact hrest ▸ lasting.starts later.id later.job

/-- What holds of each task holds of those that are left. -/
theorem remove (each : schedule.EachIs P) (id : TaskId) : (schedule.remove id).EachIs P :=
  fun task htask => each task (List.mem_of_mem_filter htask)

/-- A task may go on with whatever has the property. -/
theorem resumeAt (each : schedule.EachIs P) {id : TaskId} {rest : Activity (Option Job)}
    (h : ∀ task ∈ schedule.tasks, task.id = id → P id task.job rest) :
    (schedule.resumeAt id rest).EachIs P := by
  intro task htask
  obtain ⟨before, hbefore, rfl⟩ := List.mem_map.mp htask
  split
  · next hid =>
    rw [hid]
    exact h before hbefore hid
  · exact each before hbefore

/-- The turn of a task. -/
theorem turnOfTask (lasting : Job.Lasting P) (each : schedule.EachIs P)
    (distinct : (schedule.tasks.map Task.id).Nodup) (born : task.id < schedule.fresh)
    (htask : task ∈ schedule.tasks) : (schedule.turnOfTask task).EachIs P := by
  have hbreak {next : Schedule} (h : next.EachIs P) : (next.breakOff task).EachIs P :=
    (h.advance lasting (advances_turn task.id task.job.cleanUp next)).remove task.id
  unfold Schedule.turnOfTask
  split
  · exact hbreak each
  · have hadvances := advances_turn task.id task.rest schedule
    have hsame : ∀ other ∈ (turn task.id task.rest schedule).1.tasks, other.id = task.id →
        other.job = task.job := fun _ => hadvances.job_eq distinct born htask
    have hnext := each.advance lasting hadvances
    have hwaits : ∀ rest, (turn task.id task.rest schedule).2 = .waiting rest →
        P task.id task.job rest := fun _ => lasting.waits (each task htask)
    have hgoes : ∀ following, (turn task.id task.rest schedule).2 = .finished (some following) →
        P task.id task.job following.activity := fun _ => lasting.goesOn (each task htask)
    rcases heq : turn task.id task.rest schedule with ⟨next, ending⟩
    rw [heq] at hnext hsame hwaits hgoes
    match ending with
    | .waiting rest =>
      exact hnext.resumeAt fun other hother hid => hsame other hother hid ▸ hwaits rest rfl
    | .failed _ => exact hbreak hnext
    | .finished none => exact hnext.remove task.id
    | .finished (some job) =>
      exact hnext.resumeAt fun other hother hid => hsame other hother hid ▸ hgoes job rfl

end EachIs

end Schedule

section Callers

variable {client : Client} {P : TaskId → Operation → Activity Reply → Prop}
  {fault : Operation → World → Prop}

/-- What is left for a caller has a property, and if it has failed, it has seen a world in which it
could. -/
def Client.IsAt (P : TaskId → Operation → Activity Reply → Prop) (fault : Operation → World → Prop)
    (client : Client) : Prop :=
  match client.state with
  | .waiting rest => P client.task client.operation rest
  | .failed _ => fault client.operation client.history.now
  | .finished _ => True

/-- A caller stays at what it is at while others go on. -/
theorem Client.IsAt.watch (h : client.IsAt P fault) (worlds : List World) :
    (client.watch worlds).IsAt P fault := by
  cases hstate : client.state with
  | waiting rest =>
    rw [Client.watch_of_waiting hstate]
    unfold Client.IsAt at h ⊢
    rwa [hstate] at h ⊢
  | failed failure => rwa [Client.watch_of_not_waiting (by simp [hstate])]
  | finished reply => rwa [Client.watch_of_not_waiting (by simp [hstate])]

end Callers

namespace Interplay

variable {interplay next : Interplay} {client : Client} {rest : Activity Reply}

/-! ## Tasks -/

/-- A step leaves the tasks with what has a lasting property. -/
theorem Step.eachIs {P : TaskId → Job → Activity (Option Job) → Prop} (lasting : Job.Lasting P)
    (step : Step interplay next) (sound : interplay.Sound none)
    (each : interplay.schedule.EachIs P) : next.schedule.EachIs P := by
  have hresumed (id : TaskId) : (interplay.schedule.resume id).EachIs P := each
  have hcame : interplay.schedule.takeName.EachIs P := each
  cases step with
  | @turnOfClient client rest _ _ _ =>
    exact (hresumed client.task).advance lasting (Schedule.advances_turn client.task rest _)
  | @turnOfTask task htask _ =>
    exact (hresumed task.id).turnOfTask lasting sound.orderly.distinct
      (sound.orderly.born task htask) htask
  | elapse _ =>
    obtain ⟨htasks, -, -⟩ := Schedule.elapse_keeps interplay.schedule _
    intro task htask
    exact each task (htasks ▸ htask)
  | disturb _ _ => exact each
  | @call operation _ => exact hcame.advance lasting (Schedule.advances_turn _ _ _)
  | @drop client _ _ =>
    exact ((hresumed client.task).advance lasting
      (Schedule.advances_turn client.task _ _)).remove client.task

/-- In every run, what is left for the tasks has each lasting property. -/
theorem Reachable.eachIs {P : TaskId → Job → Activity (Option Job) → Prop}
    (lasting : Job.Lasting P) (reachable : interplay.Reachable) : interplay.schedule.EachIs P := by
  obtain ⟨world, untouched, runs⟩ := reachable
  have hstart := sound_start untouched
  induction runs with
  | refl => simp [Schedule.EachIs, start]
  | step runs step ih => exact step.eachIs lasting (runs.sound hstart) ih

/-! ## Callers -/

variable {P : TaskId → Operation → Activity Reply → Prop} {fault : Operation → World → Prop}

/-- Callers that see the world change are where they were. -/
private theorem isAt_pass (h : ∀ client ∈ interplay.clients, client.IsAt P fault)
    (actor : Option RefreshCall) (worlds : List World) (schedule : Schedule) :
    ∀ client ∈ (interplay.pass actor worlds schedule).clients, client.IsAt P fault := by
  intro client hclient
  obtain ⟨before, hbefore, rfl⟩ := List.mem_map.mp hclient
  exact (h before hbefore).watch worlds

/-- The turn of a caller. -/
private theorem isAt_act (lasting : Operation.Lasting P fault)
    (others : ∀ other ∈ interplay.clients, other.task ≠ client.task → other.IsAt P fault)
    (alone : ∀ other ∈ interplay.clients, other.task = client.task → other = client)
    (hstate : client.state = .waiting rest) (hnow : client.history.now = interplay.schedule.world)
    (h : P client.task client.operation rest) :
    ∀ other ∈ (interplay.act client rest).clients, other.IsAt P fault := by
  intro other hother
  obtain ⟨watched, hwatched, rfl⟩ := List.mem_map.mp hother
  obtain ⟨before, hbefore, rfl⟩ := List.mem_map.mp hwatched
  split
  · next hid =>
    rw [Client.task_watch] at hid
    obtain rfl := alone before hbefore hid
    rw [Client.watch_of_waiting hstate]
    unfold Client.IsAt
    dsimp only
    split
    · next later hlater => exact lasting.waits h hlater
    · next failure hfailure =>
      have hworld := Schedule.passed_getLastD before.task rest interplay.schedule
      rw [History.follow_now, hnow, hworld]
      exact lasting.fails h hfailure
    · trivial
  · next hne =>
    rw [Client.task_watch] at hne
    exact (others before hbefore hne).watch _

/-- A step leaves the callers with what has a lasting property. -/
theorem Step.isAt (lasting : Operation.Lasting P fault) (step : Step interplay next)
    (sound : interplay.Sound none) (h : ∀ client ∈ interplay.clients, client.IsAt P fault) :
    ∀ client ∈ next.clients, client.IsAt P fault := by
  cases step with
  | @turnOfClient client rest hclient hstate _ =>
    have hfine := sound.fine client hclient (by simp)
    have hrest := h client hclient
    unfold Client.Fine at hfine
    unfold Client.IsAt at hrest
    rw [hstate] at hfine hrest
    exact isAt_act lasting (fun other hother _ => h other hother)
      (fun other hother => List.inj_on_of_nodup_map sound.distinct hother hclient) hstate hfine.1
      hrest
  | turnOfTask _ _ => exact isAt_pass h _ _ _
  | elapse _ => exact isAt_pass h _ _ _
  | disturb _ _ => exact isAt_pass h _ _ _
  | @call operation _ =>
    refine isAt_act lasting ?_ ?_ rfl rfl (lasting.starts _ operation)
    · intro other hother hne
      rcases List.mem_append.mp hother with hbefore | hnew
      · exact h other hbefore
      · exact absurd (congrArg Client.task (List.mem_singleton.mp hnew)) hne
    · intro other hother hid
      rcases List.mem_append.mp hother with hbefore | hnew
      · exact absurd hid (Nat.ne_of_lt (sound.born other hbefore))
      · exact List.mem_singleton.mp hnew
  | drop _ _ =>
    intro client hclient
    exact isAt_pass h _ _ _ client (List.mem_of_mem_filter hclient)

/-- In every run, what is left for the callers has each lasting property, and those that have failed
have seen a world in which they could. -/
theorem Reachable.isAt (lasting : Operation.Lasting P fault) (reachable : interplay.Reachable) :
    ∀ client ∈ interplay.clients, client.IsAt P fault := by
  obtain ⟨world, untouched, runs⟩ := reachable
  have hstart := sound_start untouched
  induction runs with
  | refl => simp [start]
  | step runs step ih => exact step.isAt lasting (runs.sound hstart) ih

end Interplay

end CloudSession
