import CloudSession.Proofs.TokenManager.Refresh

/-!
# What the tasks of a token manager do

A task that is started for a token manager behaves like its callers. It goes on only with jobs for
the same manager and the same purpose, and it is away from all gates whenever it comes to the end of
a job.
-/

namespace CloudSession

/-- How the task of a job calls at the gate. -/
def Job.call (job : Job) (task : TaskId) : RefreshCall := ⟨task, job.purpose⟩

/-- What holds once a task has come to the end of a job. -/
structure Job.Over (job : Job) (task : TaskId) (next : Option Job) (history : History) : Prop where
  standing : history.now.Standing task [] none
  known : job.manager < history.now.managers.length
  next : ∀ following, next = some following →
    following.manager = job.manager ∧ following.purpose = job.purpose

section Tasks

variable {start : World} {id : ManagerId} {me : RefreshCall} {held : List Nat} {history : History}

/-- A task that follows advice. -/
theorem Visit.behaves_followAdvice (visit : Visit start me held none history)
    (known : id < start.managers.length) (hpurpose : me.purpose = .followAdvice) :
    id.followAdvice.Behaves me (fun _ => Visit start me held none) history := by
  have hrefreshed := visit.behaves_refreshFor known
  rw [hpurpose] at hrefreshed
  unfold ManagerId.followAdvice
  simp only [Activity.behaves_bind, Activity.behaves_modify]
  refine hrefreshed.mono ?_
  rintro - later ⟨hvisit, -⟩
  obtain ⟨hdeed, hfollowed⟩ := hvisit.quiet (f := TokenManager.adviceFollowed)
    known (.adviceFollowed _) rfl
  have hafter := hfollowed.beside (World.beside_disengage _ id)
  exact ⟨hdeed, behaves_disengage hfollowed.standing.sound hafter (hafter.stopBackground known)⟩

/-- How long to wait is only looked up. -/
theorem behaves_backgroundWait {post : Span → History → Prop} (hpost : ∀ wait, post wait history) :
    id.backgroundWait.Behaves me post history := by
  unfold ManagerId.backgroundWait
  simp only [Activity.behaves_bind, Activity.behaves_world, Activity.behaves_check]
  exact fun wait _ => hpost wait

/-- A task that waits for its first round is away from all gates. -/
theorem Visit.behaves_awaitFirstRound (visit : Visit start me held none history) :
    id.awaitFirstRound.Behaves me
      (fun next later => Visit start me held none later ∧ next = some (.round id)) history := by
  unfold ManagerId.awaitFirstRound
  simp only [Activity.behaves_bind]
  refine behaves_backgroundWait fun wait => ?_
  simp only [Activity.behaves_pause, Activity.behaves_pure]
  exact ⟨visit.standing.not_isWaiting, fun later grows => ⟨visit.grows grows, trivial⟩⟩

/-- A task that waits for its next round is away from all gates. -/
theorem Visit.behaves_awaitRound (visit : Visit start me held none history) :
    id.awaitRound.Behaves me
      (fun next later => Visit start me held none later ∧ next = some (.round id)) history := by
  unfold ManagerId.awaitRound
  simp only [Activity.behaves_bind]
  refine behaves_backgroundWait fun wait => ?_
  split
  · simp only [Activity.behaves_bind, Activity.behaves_yield, Activity.behaves_pure]
    exact ⟨visit.standing.not_isWaiting, fun later grows => ⟨visit.grows grows, trivial⟩⟩
  · simp only [Activity.behaves_bind, Activity.behaves_pause, Activity.behaves_pure]
    exact ⟨visit.standing.not_isWaiting, fun later grows => ⟨visit.grows grows, trivial⟩⟩

/-- A task that refreshes the token in the background, again and again. -/
theorem Visit.behaves_backgroundRound (visit : Visit start me held none history)
    (known : id < start.managers.length) (hpurpose : me.purpose = .renew) :
    id.backgroundRound.Behaves me
      (fun next later => Visit start me held none later ∧
        ∀ following, next = some following → following = .round id) history := by
  unfold ManagerId.backgroundRound
  simp only [Activity.behaves_bind]
  refine behaves_isInUse fun inUse => ?_
  split
  · exact ⟨visit, by simp⟩
  · simp only [Activity.behaves_bind]
    refine (visit.behaves_refresh known hpurpose).mono ?_
    rintro - later ⟨hvisit, -⟩
    refine behaves_isInUse fun inUse => ?_
    split
    · exact ⟨hvisit, by simp⟩
    · refine hvisit.behaves_awaitRound.mono ?_
      rintro _ _ ⟨hlater, rfl⟩
      exact ⟨hlater, fun following h => (Option.some.inj h).symm⟩

/-- Every task behaves at its job. -/
theorem Job.behaves_activity {job : Job} {task : TaskId}
    (standing : history.now.Standing task [] none)
    (known : job.manager < history.now.managers.length) :
    job.activity.Behaves (job.call task) (job.Over task) history := by
  have hvisit : Visit history.now (job.call task) [] none history := ⟨standing, .refl _⟩
  cases job with
  | advisory id =>
    simp only [Job.activity, Activity.behaves_bind, Activity.behaves_pure]
    refine (hvisit.behaves_followAdvice known rfl).mono ?_
    rintro - later hlater
    exact ⟨hlater.standing, hlater.known known, by simp⟩
  | background id =>
    refine hvisit.behaves_awaitFirstRound.mono ?_
    rintro _ later ⟨hlater, rfl⟩
    refine ⟨hlater.standing, hlater.known known, ?_⟩
    rintro _ ⟨⟩
    exact ⟨rfl, rfl⟩
  | round id =>
    refine (hvisit.behaves_backgroundRound known rfl).mono ?_
    rintro next later ⟨hlater, hnext⟩
    refine ⟨hlater.standing, hlater.known known, ?_⟩
    rintro following hfollowing
    rw [hnext following hfollowing]
    exact ⟨rfl, rfl⟩

/-- What holds of a task that has broken off: it is away from the gate. -/
structure BrokenOff (id : ManagerId) (task : TaskId) (history : History) : Prop where
  sound : history.now.Sound
  away : (history.now.manager id).IsAway task

/-- A task that is away from the gate is so when background refresh is given up. -/
theorem BrokenOff.stopBackground {task : TaskId} (broken : BrokenOff id task history) :
    BrokenOff id task
      (history.after (history.now.alterManager id TokenManager.stopBackground)) where
  sound := by
    have hdeed : history.now.Deed ⟨task, .renew⟩
        (history.now.alterManager id TokenManager.stopBackground) :=
      broken.sound.deed_quiet (f := TokenManager.stopBackground) (.stopBackground _) rfl
    exact hdeed.sound broken.sound
  away := by
    rw [History.after, World.manager_alterManager]
    split <;> exact broken.away

/-- A task breaks off wherever it is, and is away from the gate then. -/
theorem behaves_abandon (sound : history.now.Sound) (known : id < history.now.managers.length) :
    id.abandon.Behaves me (fun _ => BrokenOff id me.task) history := by
  have hdeed := sound.deed_abandon me id
  have haway := (sound.coherent id).isAway_abandon me.task
  have hmanager : (history.now.alterManager id fun _ =>
      (history.now.manager id).abandon me.task).manager id =
        (history.now.manager id).abandon me.task := by simp [World.manager_alterManager, known]
  unfold ManagerId.abandon
  simp only [Activity.behaves_bind, Activity.behaves_me]
  have hbroken : BrokenOff id me.task (history.after (history.now.alterManager id fun _ =>
      (history.now.manager id).abandon me.task)) := by
    refine ⟨hdeed.sound sound, ?_⟩
    rw [History.after, hmanager]
    exact haway
  exact behaves_alterAndWake sound known hdeed haway
    (behaves_stopUnlessInUse hbroken.sound hbroken hbroken.stopBackground)

/-- Every task behaves when it breaks off. -/
theorem Job.behaves_cleanUp {job : Job} (sound : history.now.Sound)
    (known : job.manager < history.now.managers.length) :
    job.cleanUp.Behaves me (fun _ => BrokenOff job.manager me.task) history := by
  cases job with
  | advisory id =>
    simp only [Job.cleanUp, Activity.behaves_bind]
    refine (behaves_abandon sound known).mono ?_
    rintro - later hbroken
    have hbeside := World.beside_disengage later.now id
    have hdone : BrokenOff id me.task (later.after (later.now.disengage id)) := by
      have hdeed : later.now.Deed me (later.now.disengage id) := hbeside.deed hbroken.sound
      refine ⟨hdeed.sound hbroken.sound, ?_⟩
      rw [History.after, hbeside.manager]
      exact hbroken.away
    exact behaves_disengage hbroken.sound hdone hdone.stopBackground
  | background id => exact behaves_abandon sound known
  | round id => exact behaves_abandon sound known

end Tasks

end CloudSession
