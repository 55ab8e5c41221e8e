import CloudSession.Proofs.Activity.Contract
import CloudSession.Proofs.Interplay.Operation

/-!
# Where the calls on a token manager fail

A call on a token manager fails only where a refresh time of the cached token cannot be computed: the
one that the call looks at. Nothing else that callers and tasks do on a manager fails.
-/

namespace CloudSession

namespace Activity

variable {α β : Type} {me : TaskId} {fault : World → Prop}

/-- The task fails only in such worlds. -/
def FailsOnlyWhere (me : TaskId) (fault : World → Prop) (activity : Activity α) : Prop :=
  ∀ world, activity.Meets me { fault } (fun _ _ => True) world

variable {activity : Activity α} {f : α → Activity β}

/-- One activity after another fails only where it may if both do. -/
theorem FailsOnlyWhere.bind (first : activity.FailsOnlyWhere me fault)
    (second : ∀ value, (f value).FailsOnlyWhere me fault) :
    (activity >>= f).FailsOnlyWhere me fault :=
  fun world => meets_bind.mpr ((first world).mono fun value later _ => second value later)

/-- A task that is done does not fail. -/
theorem failsOnlyWhere_pure (value : α) : (pure value : Activity α).FailsOnlyWhere me fault :=
  fun _ => trivial

/-- A mapped activity fails only where the activity does. -/
theorem FailsOnlyWhere.map (h : activity.FailsOnlyWhere me fault) (f : α → β) :
    (f <$> activity).FailsOnlyWhere me fault :=
  h.bind fun _ => failsOnlyWhere_pure _

/-- To read the world does not fail. -/
theorem failsOnlyWhere_world : Activity.world.FailsOnlyWhere me fault := fun _ => trivial

/-- To ask for its own name does not fail. -/
theorem failsOnlyWhere_me : Activity.me.FailsOnlyWhere me fault := fun _ => trivial

/-- A change of the world does not fail. -/
theorem failsOnlyWhere_modify (f : World → World) : (modify f).FailsOnlyWhere me fault :=
  fun _ => ⟨trivial, trivial⟩

/-- A change that has a result does not fail. -/
theorem failsOnlyWhere_update (f : World → World × α) : (update f).FailsOnlyWhere me fault :=
  fun _ => ⟨trivial, trivial⟩

/-- To wait does not fail. -/
theorem failsOnlyWhere_wait : wait.FailsOnlyWhere me fault := fun _ => ⟨trivial, fun _ _ => trivial⟩

/-- To yield does not fail. -/
theorem failsOnlyWhere_yield : yield.FailsOnlyWhere me fault := fun _ => ⟨trivial, fun _ _ => trivial⟩

/-- To pause does not fail. -/
theorem failsOnlyWhere_pause (span : Span) : (pause span).FailsOnlyWhere me fault :=
  fun _ => ⟨trivial, fun _ _ => trivial⟩

/-- To wake a task does not fail. -/
theorem failsOnlyWhere_notify (task? : Option TaskId) : (notify task?).FailsOnlyWhere me fault :=
  fun _ => meets_notify.mpr trivial

/-- To start a task does not fail. -/
theorem failsOnlyWhere_start (job : Job) : (start job).FailsOnlyWhere me fault :=
  fun _ _ => trivial

/-- To stop a task does not fail. -/
theorem failsOnlyWhere_stop (task? : Option TaskId) : (stop task?).FailsOnlyWhere me fault :=
  fun _ => meets_stop.mpr trivial

/-- A time that depends on the world is computed at once. -/
theorem failsOnlyWhere_look {f : World → Except Overflow α} {g : World → α → Activity β}
    (hfault : ∀ world, f world = .error .overflow → fault world)
    (hnext : ∀ world value, (g world value).FailsOnlyWhere me fault) :
    (Activity.world >>= fun world => check (f world) >>= g world).FailsOnlyWhere me fault :=
  fun world => meets_bind.mpr
    (meets_bind.mpr (meets_check.mpr ⟨fun value _ => hnext world value world, hfault world⟩))

/-- What is left after a turn fails only in such worlds as well. -/
theorem FailsOnlyWhere.waiting {rest : Activity α} {schedule : Schedule}
    (h : activity.FailsOnlyWhere me fault)
    (hwaiting : (schedule.turn me activity).2 = .waiting rest) : rest.FailsOnlyWhere me fault := by
  have hturn := (h schedule.world).turn.2
  rw [hwaiting] at hturn
  exact fun later => hturn.2 later trivial

/-- A turn in which the task fails leaves such a world behind. -/
theorem FailsOnlyWhere.failed {failure : Overflow} {schedule : Schedule}
    (h : activity.FailsOnlyWhere me fault)
    (hfailed : (schedule.turn me activity).2 = .failed failure) :
    fault (schedule.turn me activity).1.world := by
  have hturn := (h schedule.world).turn.2
  rwa [hfailed] at hturn

end Activity

open Activity

namespace ManagerId

variable {me : TaskId} {fault : World → Prop} {id : ManagerId} {purpose : Purpose}

/-- A change of a manager does not fail, whomever it wakes. -/
theorem failsOnlyWhere_alterAndWake (id : ManagerId) (f : TokenManager → TokenManager) :
    (id.alterAndWake f).FailsOnlyWhere me fault := by
  refine failsOnlyWhere_world.bind fun world => (failsOnlyWhere_modify _).bind fun _ => ?_
  split
  · exact failsOnlyWhere_notify _
  · exact failsOnlyWhere_pure _

/-- A refresh behind the gate does not fail. -/
theorem failsOnlyWhere_refreshInside (id : ManagerId) (call : RefreshCall) :
    (id.refreshInside call).FailsOnlyWhere me fault := by
  have hawait (policy : RefreshPolicy) (answer : Underway (Except TokenError Token)) :
      (awaitToken policy answer).FailsOnlyWhere me fault := by
    unfold awaitToken
    split
    · exact (failsOnlyWhere_pause _).bind fun _ => failsOnlyWhere_update _
    · refine failsOnlyWhere_world.bind fun began => (failsOnlyWhere_pause _).bind fun _ =>
        failsOnlyWhere_world.bind fun later => ?_
      split
      · exact failsOnlyWhere_update _
      · exact failsOnlyWhere_pure _
  refine failsOnlyWhere_world.bind fun world => (failsOnlyWhere_update _).bind fun asked =>
    (hawait _ asked).bind fun answer => ?_
  have hend : ((id.alterAndWake fun manager => manager.settle call answer) >>= fun _ =>
      pure answer).FailsOnlyWhere me fault :=
    (failsOnlyWhere_alterAndWake id _).bind fun _ => failsOnlyWhere_pure _
  dsimp only
  split
  · exact (failsOnlyWhere_modify _).bind fun _ => hend
  · exact hend

/-- A refresh fails only where it is not clear whether the cached token serves its purpose. -/
theorem failsOnlyWhere_refreshFor
    (h : ∀ world, (world.manager id).usable? purpose world.now = .error .overflow → fault world) :
    (id.refreshFor purpose).FailsOnlyWhere me fault := by
  have hinside (call : RefreshCall) (hpurpose : call.purpose = purpose) :
      (id.takeOrRefresh call).FailsOnlyWhere me fault := by
    refine failsOnlyWhere_look (fun world hworld => h world (hpurpose ▸ hworld)) fun world token? =>
      ?_
    cases token? with
    | some token => exact (failsOnlyWhere_alterAndWake id _).bind fun _ => failsOnlyWhere_pure _
    | none => exact failsOnlyWhere_refreshInside id call
  refine failsOnlyWhere_me.bind fun task => (failsOnlyWhere_modify _).bind fun _ =>
    failsOnlyWhere_world.bind fun world => ?_
  dsimp only
  split
  · exact failsOnlyWhere_wait.bind fun _ => hinside _ rfl
  · exact hinside _ rfl

/-- A refresh in any case never fails. -/
theorem failsOnlyWhere_refresh (id : ManagerId) : id.refresh.FailsOnlyWhere me fault := by
  refine failsOnlyWhere_refreshFor fun world h => ?_
  unfold TokenManager.usable? at h
  split at h <;> cases h

/-- To hand out the token fails only where its phase is not clear, or whether it is stale. -/
theorem failsOnlyWhere_get
    (hphase : ∀ world, (world.manager id).phase world.now = .error .overflow → fault world)
    (husable : ∀ world, (world.manager id).usable? .avoidStale world.now = .error .overflow →
      fault world) : id.get.FailsOnlyWhere me fault := by
  have hadvise : id.advise.FailsOnlyWhere me fault := by
    refine failsOnlyWhere_world.bind fun world => ?_
    split
    · exact failsOnlyWhere_pure _
    · refine (failsOnlyWhere_modify _).bind fun _ => ?_
      split
      · exact (failsOnlyWhere_modify _).bind fun _ => (failsOnlyWhere_start _).bind fun _ =>
          failsOnlyWhere_pure _
      · exact failsOnlyWhere_modify _
  refine failsOnlyWhere_look hphase fun world phase => ?_
  split
  · exact failsOnlyWhere_pure _
  · exact hadvise.bind fun _ => failsOnlyWhere_pure _
  · exact failsOnlyWhere_refreshFor husable

/-- Whoever asks if the token has expired fails only where that cannot be told. -/
theorem failsOnlyWhere_isExpired
    (h : ∀ world, (world.manager id).isExpired world.now = .error .overflow → fault world) :
    id.isExpired.FailsOnlyWhere me fault :=
  fun world => meets_bind.mpr (meets_check.mpr ⟨fun _ _ => trivial, h world⟩)

/-- To look whether a manager is in use does not fail. -/
theorem failsOnlyWhere_isInUse (id : ManagerId) : id.isInUse.FailsOnlyWhere me fault :=
  failsOnlyWhere_world.bind fun _ => failsOnlyWhere_pure _

/-- To stop a loop that nobody uses does not fail. -/
theorem failsOnlyWhere_stopUnlessInUse (id : ManagerId) :
    id.stopUnlessInUse.FailsOnlyWhere me fault := by
  refine (failsOnlyWhere_isInUse id).bind fun inUse => ?_
  split
  · exact failsOnlyWhere_world.bind fun _ => (failsOnlyWhere_modify _).bind fun _ =>
      failsOnlyWhere_stop _
  · exact failsOnlyWhere_pure _

end ManagerId

/-- A task fails only where it is not clear whether the advice is followed already, or how long to
wait. -/
theorem Job.failsOnlyWhere_activity {me : TaskId} {fault : World → Prop} {job : Job}
    (husable : ∀ world, (world.manager job.manager).usable? .followAdvice world.now =
      .error .overflow → fault world)
    (hwait : ∀ world, (world.manager job.manager).backgroundWait world.now = .error .overflow →
      fault world) : job.activity.FailsOnlyWhere me fault := by
  cases job with
  | advisory id =>
    have hfollow : id.followAdvice.FailsOnlyWhere me fault :=
      (ManagerId.failsOnlyWhere_refreshFor husable).bind fun _ =>
        (failsOnlyWhere_modify _).bind fun _ => (failsOnlyWhere_modify _).bind fun _ =>
          ManagerId.failsOnlyWhere_stopUnlessInUse id
    exact hfollow.bind fun _ => failsOnlyWhere_pure _
  | background id =>
    have hpause : id.backgroundWait.FailsOnlyWhere me fault := fun world =>
      meets_bind.mpr (meets_check.mpr ⟨fun _ _ => trivial, hwait world⟩)
    exact hpause.bind fun wait => (failsOnlyWhere_pause wait).bind fun _ => failsOnlyWhere_pure _
  | round id =>
    have hpause : id.backgroundWait.FailsOnlyWhere me fault := fun world =>
      meets_bind.mpr (meets_check.mpr ⟨fun _ _ => trivial, hwait world⟩)
    refine (ManagerId.failsOnlyWhere_isInUse id).bind fun inUse => ?_
    split
    · exact failsOnlyWhere_pure _
    · refine (ManagerId.failsOnlyWhere_refresh id).bind fun _ =>
        (ManagerId.failsOnlyWhere_isInUse id).bind fun inUse => ?_
      split
      · exact failsOnlyWhere_pure _
      · refine hpause.bind fun wait => ?_
        split
        · exact failsOnlyWhere_yield.bind fun _ => failsOnlyWhere_pure _
        · exact (failsOnlyWhere_pause wait).bind fun _ => failsOnlyWhere_pure _

end CloudSession
