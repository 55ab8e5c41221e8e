import CloudSession.Proofs.Background.Advice
import CloudSession.Proofs.Interplay.Lifecycle
import CloudSession.Proofs.Interplay.RefreshTimes

/-!
# Advised refreshes in a run

In every run, at most one task follows advice about a manager, and the manager notes that a refresh
which was advised is under way just as long as there is such a task. Whoever asks for a token whose
refresh is advised gets the cached one at once; meanwhile, a task is started if there is none and one
can be started, and nothing changes otherwise. All this holds unless the advisory refresh time of a
cached token could not be computed. Where it could not, the note may outlive its task, and then no
task follows advice any more.
-/

namespace CloudSession

/-- The advisory refresh time of every token can be computed. -/
def RefreshPolicy.HasAdvisoryTimes (policy : RefreshPolicy) : Prop :=
  ∀ token, policy.advisoryTime token ≠ .error .overflow

/-- By default, the advisory refresh time of every token can be computed. -/
theorem RefreshPolicy.IsDefault.hasAdvisoryTimes {policy : RefreshPolicy}
    (default : policy.IsDefault) : policy.HasAdvisoryTimes := by
  intro token
  rw [default.advisoryTime_eq token]
  rintro ⟨⟩

/-- A token is cached and handed out, but its refresh is advised. -/
structure World.Advises (world : World) (id : ManagerId) (token : Token) : Prop where
  cached : (world.manager id).token = some token
  phase : (world.manager id).phase world.now = .ok .advised

namespace Schedule

variable {schedule : Schedule} {id : ManagerId} {token : Token}

/-- Whoever asks for a token whose refresh is advised gets the cached one, whatever comes of the
advice. -/
theorem turn_getToken (me : TaskId) (advises : schedule.world.Advises id token) {after : Schedule}
    (hadvise : turn me id.advise schedule = (after, .finished ())) :
    turn me (Operation.getToken id).activity schedule =
      (after, .finished (.token (.ok token))) := by
  have hget : turn me id.get schedule =
      turn me (id.advise >>= fun _ => pure (Except.ok token)) schedule := by
    unfold ManagerId.get
    simp only [bind, Activity.bind, Activity.now, Activity.world, turn, advises.phase, advises.cached,
      Activity.check]
  exact turn_map (hget.trans (turn_bind_of_finished hadvise _)) _

end Schedule

namespace Interplay

variable {interplay next : Interplay} {id : ManagerId} {token : Token}

/-! ## Every step -/

/-- Whether at some moment it was unclear if the token of a manager was to be refreshed. -/
def WasUnclear (interplay : Interplay) (id : ManagerId) : Prop :=
  ∃ moment ∈ interplay.story, moment.world.IsUnclear id

/-- What holds of the tasks that follow advice in a run. -/
def Advised (interplay : Interplay) : Prop :=
  interplay.schedule.Advised interplay.WasUnclear

/-- The world before a turn and those that it goes through are moments of the story. -/
private theorem wasUnclear_of_mem {actor : Option RefreshCall} {worlds : List World} {world : World}
    {schedule : Schedule} (sound : interplay.Sound none)
    (hworld : world ∈ interplay.schedule.world :: worlds) (h : world.IsUnclear id) :
    (interplay.pass actor worlds schedule).WasUnclear id := by
  rcases List.mem_cons.mp hworld with rfl | hpassed
  · obtain ⟨present, hpresent, hnow⟩ := Option.map_eq_some_iff.mp sound.present
    exact ⟨present, List.mem_append_left _ (List.mem_of_getLast? hpresent), hnow.symm ▸ h⟩
  · exact ⟨_, List.mem_append_right _ (List.mem_map_of_mem hpassed), h⟩

/-- What was unclear has been so. -/
private theorem Advised.mono {schedule : Schedule} {more : List Moment}
    (advised : schedule.Advised interplay.WasUnclear)
    (hstory : next.story = interplay.story ++ more) : schedule.Advised next.WasUnclear :=
  Schedule.Advised.mono advised fun _ ⟨moment, hmoment, hunclear⟩ =>
    ⟨moment, hstory ▸ List.mem_append_left _ hmoment, hunclear⟩

/-- A step keeps what holds of the tasks that follow advice. -/
theorem Step.advised (step : Step interplay next) (reachable : interplay.Reachable)
    (advised : interplay.Advised) : next.Advised := by
  have sound := reachable.sound
  cases step with
  | @turnOfClient client rest hclient hstate _ =>
    have hrest := reachable.isAt Operation.lasting_obeys client hclient
    unfold Client.IsAt at hrest
    rw [hstate] at hrest
    exact Advised.mono ((advised.resume client.task).turn hrest client.task) rfl
  | @turnOfTask task htask _ =>
    have heeds := (reachable.eachIs Job.lasting_heeds task htask).2
    refine Schedule.Advised.turnOfTask (Advised.mono (advised.resume task.id) rfl) htask heeds ?_
    intro halive other hunclear
    refine wasUnclear_of_mem sound ?_ hunclear
    have hlast := Schedule.world_turn_mem task.id task.rest (interplay.schedule.resume task.id)
    rw [Schedule.passedOfTask, if_neg (by simp [halive])]
    exact List.cons_subset_cons _ (List.subset_append_left _ _) hlast
  | @elapse elapsed _ => exact Advised.mono (advised.elapse elapsed) rfl
  | @disturb world outside _ => exact Advised.mono (advised.outside outside) rfl
  | @call operation _ =>
    exact Advised.mono (advised.takeName.turn (fun _ frame => operation.obeys frame) _) rfl
  | @drop client hclient _ =>
    have hreleased := (advised.resume client.task).turn
      (fun _ frame => obeys_release frame interplay.schedule.world.managers.length
        interplay.schedule.world.caches.length) client.task
    refine Advised.mono (hreleased.remove fun task htask hid => ?_) rfl
    -- callers have names of their own
    rcases (Schedule.advances_turn client.task _ _).origin task htask with
      ⟨before, hbefore, hbecomes⟩ | ⟨hnew, -⟩
    · exact absurd (hbecomes.id_eq.symm.trans hid) (sound.apart client hclient before hbefore)
    · exact absurd (sound.born client hclient) (Nat.not_lt_of_le (hid ▸ hnew))

/-- In every run, the tasks that follow advice are as they should be. -/
theorem Reachable.advised (reachable : interplay.Reachable) : interplay.Advised := by
  obtain ⟨world, untouched, runs⟩ := reachable
  induction runs with
  | refl =>
    have hmanager (id : ManagerId) : (world.manager id).background = none ∧
        (world.manager id).advisoryInFlight = false := by
      rw [untouched.manager_eq id]
      exact ⟨rfl, rfl⟩
    exact {
      distinct := List.nodup_nil
      born := by simp [start]
      loops := fun id loop hloop => absurd hloop (by simp [start, (hmanager id).1])
      aborted := by simp [start]
      counted := fun id _ =>
        ⟨untouched.followers_eq id, .inl (congrArg Bool.toNat (hmanager id).2).symm⟩ }
  | step runs step ih => exact step.advised ⟨world, untouched, runs⟩ ih

/-! ## Who asks for a token whose refresh is advised -/

/-- Somebody asks for the token of a manager, and then somebody else, and so on. -/
def asked (interplay : Interplay) (id : ManagerId) : Nat → Interplay
  | 0 => interplay
  | n + 1 => (interplay.asked id n).call (.getToken id)

/-- To ask for the token of a manager starts a task that follows the advice and can run at once. -/
def StartsAdvice (interplay : Interplay) (id : ManagerId) : Prop :=
  ∃ task : Task, (interplay.call (.getToken id)).schedule.tasks =
      interplay.schedule.tasks ++ [task] ∧
    task.job = .advisory id ∧ task.rest = task.job.activity ∧ task.aborted = false ∧
    task.id ∈ (interplay.call (.getToken id)).schedule.ready

/-- Nothing changes while a refresh that was advised is noted to be under way, or where no task can be
started. -/
theorem call_getToken_aside (advises : interplay.schedule.world.Advises id token)
    (h : (interplay.schedule.world.manager id).advisoryInFlight = true ∨
      interplay.schedule.world.canStartTasks = false) :
    interplay.LeavesAlone (.getToken id) ∧
      interplay.Replies (.getToken id) (.token (.ok token)) := by
  have hadvises : interplay.schedule.takeName.world.Advises id token := advises
  have hadvise : Schedule.turn interplay.schedule.fresh id.advise interplay.schedule.takeName =
      (interplay.schedule.takeName, .finished ()) := by
    cases hnoted : (interplay.schedule.takeName.world.manager id).advise with
    | none =>
      exact (Schedule.turn_advise_of_inFlight _ (by simpa [TokenManager.advise] using hnoted)).1
    | some advised =>
      refine (Schedule.turn_advise_inVain _ hnoted (h.resolve_left ?_)).1
      exact Bool.eq_false_iff.mp (TokenManager.advisoryInFlight_of_advise hnoted)
  have hturn := Schedule.turn_getToken interplay.schedule.fresh hadvises hadvise
  exact ⟨by rw [LeavesAlone, schedule_call, hturn], replies_of_turn (by rw [hturn])⟩

/-- Otherwise, a task is started that follows the advice. -/
theorem call_getToken (advises : interplay.schedule.world.Advises id token)
    (h : (interplay.schedule.world.manager id).advisoryInFlight = false)
    (htasks : interplay.schedule.world.canStartTasks = true) :
    (interplay.call (.getToken id)).schedule =
        Schedule.spawn { interplay.schedule.takeName with
          world := (interplay.schedule.world.alterManager id fun _ =>
            { interplay.schedule.world.manager id with advisoryInFlight := true }).engage id }
          (.advisory id) ∧
      interplay.Replies (.getToken id) (.token (.ok token)) := by
  have hadvises : interplay.schedule.takeName.world.Advises id token := advises
  have hnoted : (interplay.schedule.takeName.world.manager id).advise =
      some { interplay.schedule.world.manager id with advisoryInFlight := true } :=
    if_neg (Bool.eq_false_iff.mp h)
  have hturn := Schedule.turn_getToken interplay.schedule.fresh hadvises
    (Schedule.turn_advise interplay.schedule.fresh hnoted htasks).1
  exact ⟨by rw [schedule_call, hturn]; rfl, replies_of_turn (by rw [hturn])⟩

/-- Whoever asks for a token whose refresh is advised is handed the cached one. -/
theorem replies_getToken (advises : interplay.schedule.world.Advises id token) :
    interplay.Replies (.getToken id) (.token (.ok token)) := by
  cases hflag : (interplay.schedule.world.manager id).advisoryInFlight with
  | true => exact (call_getToken_aside advises (.inl hflag)).2
  | false =>
    cases htasks : interplay.schedule.world.canStartTasks with
    | true => exact (call_getToken advises hflag htasks).2
    | false => exact (call_getToken_aside advises (.inr htasks)).2

/-- What the calls so far have come to: the token is still advised to be refreshed, and at most one
task has been started. -/
private structure Queues (interplay after : Interplay) (id : ManagerId) (token : Token)
    (started : List Task) : Prop where
  known : id < after.schedule.world.managers.length
  advises : after.schedule.world.Advises id token
  tasks : after.schedule.tasks = interplay.schedule.tasks ++ started
  jobs : ∀ task ∈ started, task.job = .advisory id
  length : started.length ≤ 1
  first : (after.schedule.world.manager id).advisoryInFlight = false → started = []

/-- One more asks, and nothing changes. -/
private theorem Queues.aside {after : Interplay} {started : List Task}
    (queues : interplay.Queues after id token started)
    (halone : after.LeavesAlone (.getToken id)) :
    interplay.Queues (after.call (.getToken id)) id token started where
  known := by rw [halone]; exact queues.known
  advises := by rw [halone]; exact queues.advises
  tasks := by rw [halone]; exact queues.tasks
  jobs := queues.jobs
  length := queues.length
  first := by rw [halone]; exact queues.first

/-- One more asks. -/
private theorem Queues.call {after : Interplay} {started : List Task}
    (queues : interplay.Queues after id token started) :
    ∃ started, interplay.Queues (after.call (.getToken id)) id token started := by
  by_cases h : (after.schedule.world.manager id).advisoryInFlight = true ∨
      after.schedule.world.canStartTasks = false
  · exact ⟨started, queues.aside (call_getToken_aside queues.advises h).1⟩
  · rw [not_or, Bool.not_eq_true, Bool.not_eq_false] at h
    obtain ⟨hflag, htasks⟩ := h
    have hstarts := (call_getToken queues.advises hflag htasks).1
    have hmanager : (after.call (.getToken id)).schedule.world.manager id =
        { after.schedule.world.manager id with advisoryInFlight := true } := by
      rw [hstarts, Schedule.spawn, World.manager_engage, World.manager_alterManager,
        if_pos ⟨rfl, queues.known⟩]
    have hnow : (after.call (.getToken id)).schedule.world.now = after.schedule.world.now := by
      rw [hstarts]
      rfl
    let adviser : Task :=
      { id := after.schedule.fresh + 1, job := .advisory id, rest := (Job.advisory id).activity }
    refine ⟨[adviser], ?_, ?_, ?_, List.forall_mem_singleton.mpr rfl, Nat.le_refl _, ?_⟩
    · rw [hstarts]
      simpa [Schedule.spawn, World.engage, World.alterManager] using queues.known
    · exact ⟨by rw [hmanager]; exact queues.advises.cached,
        by rw [hmanager, hnow]; exact queues.advises.phase⟩
    · rw [hstarts, Schedule.spawn, Schedule.takeName, queues.tasks, queues.first hflag,
        List.append_nil]
    · rw [hmanager]
      rintro ⟨⟩

/-- Any number of callers ask. -/
private theorem exists_queues_asked (advises : interplay.schedule.world.Advises id token)
    (known : id < interplay.schedule.world.managers.length) (n : Nat) :
    ∃ started, interplay.Queues (interplay.asked id n) id token started := by
  induction n with
  | zero => exact ⟨[], known, advises, (List.append_nil _).symm, by simp, Nat.zero_le _, fun _ => rfl⟩
  | succ n ih =>
    obtain ⟨started, queues⟩ := ih
    exact queues.call

/-! ## The advice in a run -/

/-- What holds of the refreshes of a manager that are advised. -/
structure TracksAdvice (interplay : Interplay) (id : ManagerId) : Prop where
  /-- At most one task follows advice. -/
  one : ∀ task ∈ interplay.schedule.tasks, ∀ other ∈ interplay.schedule.tasks,
    task.job = .advisory id → other.job = .advisory id → task = other
  /-- The manager notes that a refresh is under way just as long as there is such a task, unless it
  was unclear at some moment whether the token was to be refreshed. -/
  noted : ¬interplay.WasUnclear id →
    ((interplay.schedule.world.manager id).advisoryInFlight = true ↔
      ∃ task ∈ interplay.schedule.tasks, task.job = .advisory id)
  /-- In any case, it does while there is such a task. -/
  underway : ∀ task ∈ interplay.schedule.tasks, task.job = .advisory id →
    (interplay.schedule.world.manager id).advisoryInFlight = true
  /-- Any number of callers that ask for the token start one such task at most, and are handed out the
  cached token. -/
  queued : ∀ token, interplay.schedule.world.Advises id token → ∀ n,
    (interplay.asked id n).Replies (.getToken id) (.token (.ok token)) ∧
      ∃ started : List Task, started.length ≤ 1 ∧ (∀ task ∈ started, task.job = .advisory id) ∧
        (interplay.asked id n).schedule.tasks = interplay.schedule.tasks ++ started
  /-- They start none while there is one. -/
  shared : ∀ token, interplay.schedule.world.Advises id token →
    (∃ task ∈ interplay.schedule.tasks, task.job = .advisory id) →
      interplay.LeavesAlone (.getToken id)
  /-- Where no task can be started, they leave no note behind either. -/
  taskless : ∀ token, interplay.schedule.world.Advises id token →
    interplay.schedule.world.canStartTasks = false → interplay.LeavesAlone (.getToken id)
  /-- Once there is none, whoever asks starts another where one can be started, unless it was unclear
  at some moment whether the token was to be refreshed. -/
  again : ¬interplay.WasUnclear id → ∀ token, interplay.schedule.world.Advises id token →
    interplay.schedule.world.canStartTasks = true →
      (∀ task ∈ interplay.schedule.tasks, task.job ≠ .advisory id) → interplay.StartsAdvice id

/-- At most one task follows advice about a manager. -/
private theorem Advised.one (advised : interplay.Advised)
    (known : id < interplay.schedule.world.managers.length) {task other : Task}
    (htask : task ∈ interplay.schedule.tasks) (hother : other ∈ interplay.schedule.tasks)
    (hjob : task.job = .advisory id) (hjob' : other.job = .advisory id) : task = other := by
  have hle := (advised.counted id known).le_one
  have hless := Schedule.advisers_remove advised.distinct htask id
  rw [if_pos hjob] at hless
  by_contra hne
  have hid : other.id ≠ task.id := fun hid =>
    hne (List.inj_on_of_nodup_map advised.distinct hother htask hid).symm
  have hpos : 0 < (interplay.schedule.remove task.id).advisers id :=
    List.countP_pos_iff.mpr
      ⟨other, List.mem_filter.mpr ⟨hother, decide_eq_true hid⟩, decide_eq_true hjob'⟩
  omega

/-- As long as a task follows advice, it is noted. -/
private theorem Advised.inFlight (advised : interplay.Advised)
    (known : id < interplay.schedule.world.managers.length)
    (h : ∃ task ∈ interplay.schedule.tasks, task.job = .advisory id) :
    (interplay.schedule.world.manager id).advisoryInFlight = true := by
  obtain ⟨task, htask, hjob⟩ := h
  have hpos : 0 < interplay.schedule.advisers id :=
    List.countP_pos_iff.mpr ⟨task, htask, decide_eq_true hjob⟩
  exact (advised.counted id known).inFlight hpos

/-- A note outlives its task only where it was unclear whether the token was to be refreshed. -/
private theorem Advised.wasUnclear (advised : interplay.Advised)
    (known : id < interplay.schedule.world.managers.length)
    (h : (interplay.schedule.world.manager id).advisoryInFlight = true)
    (hnone : ∀ task ∈ interplay.schedule.tasks, task.job ≠ .advisory id) :
    interplay.WasUnclear id := by
  have hnoted := (advised.counted id known).noted
  have hzero : interplay.schedule.advisers id = 0 :=
    List.countP_eq_zero.mpr fun task htask => by simpa using hnone task htask
  have hflag : (interplay.schedule.world.managed id).manager.advisoryInFlight = true := h
  rw [hzero, hflag] at hnoted
  exact (hnoted.resolve_left (by simp)).1

/-- In every run, the refreshes that are advised are tracked. -/
theorem Reachable.tracksAdvice (reachable : interplay.Reachable)
    (known : id < interplay.schedule.world.managers.length) : interplay.TracksAdvice id := by
  have advised := reachable.advised
  exact {
    one := fun task htask other hother => advised.one known htask hother
    noted := fun hclear => ⟨fun h => by
      by_contra hnone
      exact hclear (advised.wasUnclear known h (by simpa using hnone)), advised.inFlight known⟩
    underway := fun task htask hjob => advised.inFlight known ⟨task, htask, hjob⟩
    queued := fun token advises n => by
      obtain ⟨started, queues⟩ := exists_queues_asked advises known n
      exact ⟨replies_getToken queues.advises, started, queues.length, queues.jobs, queues.tasks⟩
    shared := fun token advises h =>
      (call_getToken_aside advises (.inl (advised.inFlight known h))).1
    taskless := fun token advises htasks => (call_getToken_aside advises (.inr htasks)).1
    again := fun hclear token advises htasks hnone => by
      have hflag : (interplay.schedule.world.manager id).advisoryInFlight = false :=
        Bool.eq_false_iff.mpr fun h => hclear (advised.wasUnclear known h hnone)
      rw [StartsAdvice, (call_getToken advises hflag htasks).1]
      exact ⟨_, rfl, rfl, rfl, rfl, List.mem_append_right _ (List.mem_singleton_self _)⟩ }

/-- If the advisory refresh time of every token can be computed, it is always clear whether the token
is to be refreshed. -/
theorem Reachable.not_wasUnclear (reachable : interplay.Reachable)
    (htimes : (interplay.schedule.world.manager id).policy.HasAdvisoryTimes) :
    ¬interplay.WasUnclear id := by
  rintro ⟨moment, hmoment, token, -, hunclear⟩
  rw [reachable.sound.policy_eq_of_mem id hmoment] at hunclear
  exact htimes token hunclear

/-- The refreshes that keep a manager in use when its owner is done with it are those of tasks that
follow advice, and that of a loop at the gate. -/
theorem Reachable.isRefreshing_iff (reachable : interplay.Reachable)
    (known : id < interplay.schedule.world.managers.length) :
    (interplay.schedule.world.managed id).IsRefreshing ↔
      (∃ task ∈ interplay.schedule.tasks, task.job = .advisory id) ∨
        ∃ loop, (interplay.schedule.world.manager id).background = some loop ∧
          (interplay.schedule.world.manager id).isCalledBy loop = true := by
  have husers := (reachable.advised.counted id known).users
  refine or_congr ?_ Iff.rfl
  rw [husers, Schedule.advisers, Nat.ne_zero_iff_zero_lt, List.countP_pos_iff]
  simp only [decide_eq_true_eq]

/-- A token that lives for an hour is handed out, and handed out twice more when its refresh is
advised. -/
def advisedTwice : Interplay :=
  let issued : IssuerAnswer := { token := fun now => .ok (.issued "first" "" "" 3600 now) }
  let refused : IssuerAnswer := { token := fun _ => .error (.issuer "not now") }
  let handedOut := (start (.solo {} [issued, refused])).call (.getToken 0)
  ((handedOut.elapse (.ofSeconds 2800)).call (.getToken 0)).call (.getToken 0)

/-- The task that follows the advice has failed to get a new token. -/
def adviceRefused : Interplay := advisedTwice.giveTaskTurn 3

/-- Then no such task is left, and the next caller starts another. -/
theorem adviceRefused_tracksAdvice :
    advisedTwice.schedule.tasks.map Task.job = [.advisory 0] ∧
      adviceRefused.schedule.tasks.map Task.job = [] ∧
      0 < adviceRefused.schedule.world.managers.length ∧ adviceRefused.TracksAdvice 0 ∧
      adviceRefused.StartsAdvice 0 := by
  have reachable : adviceRefused.Reachable := by
    refine ⟨_, World.untouched_solo _ _, Runs.giveTaskTurn (.step (.step (.step (.step (.refl _)
      (.call ?_)) (.elapse ?_)) (.call ?_)) (.call ?_)) ?_⟩
    · exact Nat.zero_lt_one
    · decide +kernel
    · change 0 < _
      decide +kernel
    · change 0 < _
      decide +kernel
    · decide +kernel
  have known : 0 < adviceRefused.schedule.world.managers.length := by decide +kernel
  have htracks : adviceRefused.TracksAdvice 0 := reachable.tracksAdvice known
  have hnone : adviceRefused.schedule.tasks.map Task.job = [] := by decide +kernel
  have default : (adviceRefused.schedule.world.manager 0).policy.IsDefault := ⟨rfl, rfl⟩
  refine ⟨by decide +kernel, hnone, known, htracks, htracks.again
    (reachable.not_wasUnclear default.hasAdvisoryTimes) (.issued "first" "" "" 3600 .epoch)
    ⟨?_, ?_⟩ rfl ?_⟩
  · decide +kernel
  · decide +kernel
  · simp [List.map_eq_nil_iff.mp hnone]

/-- Before the task that follows the advice has its turn, the token is replaced by one for which the
advisory refresh time cannot be computed. -/
def adviceUnclear : Interplay :=
  let ordinary : IssuerAnswer := { token := fun now => .ok (.issued "ordinary" "" "" 100 now) }
  let endless : Token :=
    { access := "endless", refresh := "", type := "", expiresIn := 9223372036854775807
      expiration := 2000 }
  let answers := [ordinary, { token := fun _ => .ok endless }, ordinary]
  let policy : RefreshPolicy := { advisory := RefreshThreshold.percent 25 }
  let advised := (((start (.solo policy answers)).call (.getToken 0)).elapse
    (.ofSeconds 80)).call (.getToken 0)
  advised.call (.refreshToken 0)

/-- The task has had its turn, there is an ordinary token again, and its refresh is advised. -/
def adviceLost : Interplay :=
  ((adviceUnclear.giveTaskTurn 3).call (.refreshToken 0)).elapse (.ofSeconds 160)

/-- The note has outlived the task, and no other task is started. -/
theorem adviceLost_staysNoted :
    adviceLost.Reachable ∧
      adviceLost.schedule.world.Advises 0 (.issued "ordinary" "" "" 100 (.ofSeconds 80)) ∧
      ¬((adviceLost.schedule.world.manager 0).advisoryInFlight = true ↔
        ∃ task ∈ adviceLost.schedule.tasks, task.job = .advisory 0) ∧
      adviceLost.LeavesAlone (.getToken 0) ∧ ¬adviceLost.StartsAdvice 0 := by
  have reachable : adviceLost.Reachable := by
    refine ⟨_, World.untouched_solo _ _, .step (.step (Runs.giveTaskTurn (.step (.step (.step
      (.step (.refl _) (.call ?_)) (.elapse ?_)) (.call ?_)) (.call ?_)) ?_) (.call ?_)) (.elapse ?_)⟩
    · exact Nat.zero_lt_one
    · decide +kernel
    · change 0 < _
      decide +kernel
    · change 0 < _
      decide +kernel
    · decide +kernel
    · change 0 < _
      decide +kernel
    · decide +kernel
  have hnone : adviceLost.schedule.tasks.map Task.job = [] := by decide +kernel
  have hflag : (adviceLost.schedule.world.manager 0).advisoryInFlight = true := by decide +kernel
  have advises : adviceLost.schedule.world.Advises 0
      (.issued "ordinary" "" "" 100 (.ofSeconds 80)) :=
    ⟨by decide +kernel, by decide +kernel⟩
  have halone : adviceLost.LeavesAlone (.getToken 0) := (call_getToken_aside advises (.inl hflag)).1
  have hempty := List.map_eq_nil_iff.mp hnone
  refine ⟨reachable, advises, ?_, halone, ?_⟩
  · simp [hflag, hempty]
  · rintro ⟨task, htasks, -⟩
    rw [halone, Schedule.takeName, hempty] at htasks
    cases htasks

end Interplay

end CloudSession
