import CloudSession.Proofs.Activity.Law

/-!
# What obeys every frame law

Whatever callers ask for, whatever a loop of background refresh does and whatever is left to do when a
task breaks off obeys every frame law. A task that follows advice does so until the advice is
followed.
-/

namespace CloudSession

namespace TokenManager

variable (manager : TokenManager)

/-- A call that is settled leaves the note of advice alone. -/
@[simp] theorem advisoryInFlight_settle (call : RefreshCall) (answer : Except TokenError Token) :
    (manager.settle call answer).advisoryInFlight = manager.advisoryInFlight := by
  cases answer <;> rfl

/-- A call that is abandoned leaves the note of advice alone. -/
@[simp] theorem advisoryInFlight_abandon (task : TaskId) :
    (manager.abandon task).advisoryInFlight = manager.advisoryInFlight := by
  unfold abandon
  split <;> rfl

end TokenManager

open Activity

variable {law : TurnLaw}

section Calls

variable (frame : law.IsFrame)
include frame

namespace ManagerId

/-! ## Managers -/

/-- A change of a manager that concerns neither the note nor the loop obeys every frame law. -/
theorem obeys_alterAndWake (id : ManagerId) {f : TokenManager → TokenManager}
    (hadvisory : ∀ manager, (f manager).advisoryInFlight = manager.advisoryInFlight)
    (hbackground : ∀ manager, (f manager).background = manager.background) :
    (id.alterAndWake f).Obeys law := by
  unfold alterAndWake
  refine obeys_world_bind fun world => ?_
  have hwrite : world.Minor (world.alterManager id fun _ => f (world.manager id)) :=
    .alterManager (hadvisory _) (hbackground _)
  refine (obeysFrom_modify frame hwrite).bind frame fun _ => ?_
  split
  · exact obeys_notify frame _
  · exact obeys_pure frame _

/-- To await a token obeys every frame law, if its arrival is always minor. -/
theorem obeys_awaitToken (policy : RefreshPolicy) {answer : Underway (Except TokenError Token)}
    (harrive : ∀ later : World, later.Minor (answer.arrive later).1) :
    (awaitToken policy answer).Obeys law := by
  unfold awaitToken
  split
  · exact obeys_await frame harrive
  · refine (obeys_world frame).bind frame fun began => (obeys_pause frame _).bind frame fun _ =>
      (obeys_world frame).bind frame fun later => ?_
    split
    · exact obeys_update frame harrive
    · exact obeys_pure frame _

/-- A refresh behind the gate obeys every frame law. -/
theorem obeys_refreshInside (id : ManagerId) (call : RefreshCall) :
    (id.refreshInside call).Obeys law := by
  unfold refreshInside
  refine (obeys_world frame).bind frame fun world => ?_
  refine obeys_update_bind frame (fun asked => .beginIssue asked id call) fun asked => ?_
  refine (obeys_awaitToken frame _ fun later => .issue_arrive asked later _).bind frame
    fun answer => ?_
  have hend : ((id.alterAndWake fun manager => manager.settle call answer) >>= fun _ =>
      pure answer).Obeys law :=
    (obeys_alterAndWake frame id (fun manager => manager.advisoryInFlight_settle call answer)
      fun manager => manager.background_settle call answer).bind frame fun _ => obeys_pure frame _
  dsimp only
  split
  · exact (obeys_modify frame fun later => .warn later _).bind frame fun _ => hend
  · exact hend

/-- To take the cached token or refresh it obeys every frame law. -/
theorem obeys_takeOrRefresh (id : ManagerId) (call : RefreshCall) :
    (id.takeOrRefresh call).Obeys law := by
  unfold takeOrRefresh
  refine (obeys_world frame).bind frame fun world => (obeys_check frame _).bind frame
    fun token? => ?_
  cases token? with
  | some token =>
    have hleave : (id.alterAndWake (·.leave call)).Obeys law :=
      obeys_alterAndWake frame id (fun _ => rfl) fun _ => rfl
    exact hleave.bind frame fun _ => obeys_pure frame _
  | none => exact obeys_refreshInside frame id call

/-- A refresh obeys every frame law, whatever it is for. -/
theorem obeys_refreshFor (id : ManagerId) (purpose : Purpose) :
    (id.refreshFor purpose).Obeys law := by
  unfold refreshFor
  refine (obeys_me frame).bind frame fun me =>
    (obeys_modify frame fun later => .alterManager rfl rfl).bind frame fun _ => ?_
  refine (obeys_world frame).bind frame fun world => ?_
  dsimp only
  split
  · exact (obeys_wait frame).bind frame fun _ => obeys_takeOrRefresh frame id _
  · exact obeys_takeOrRefresh frame id _

/-- A refresh that is advised is started in a single turn. -/
theorem obeys_advise (id : ManagerId) : id.advise.Obeys law := by
  refine .of_finished fun me schedule => ?_
  cases hadvise : (schedule.world.manager id).advise with
  | none =>
    have hflag : (schedule.world.manager id).advisoryInFlight = true := by
      simpa [TokenManager.advise] using hadvise
    obtain ⟨hturn, hpassed⟩ := Schedule.turn_advise_of_inFlight me hflag
    exact ⟨_, _, hturn, hpassed ▸ frame.refl schedule⟩
  | some advised =>
    cases htasks : schedule.world.canStartTasks with
    | true =>
      obtain ⟨hturn, hpassed⟩ := Schedule.turn_advise me hadvise htasks
      exact ⟨_, _, hturn, hpassed ▸ frame.advise schedule id advised hadvise⟩
    | false =>
      obtain ⟨hturn, hpassed⟩ := Schedule.turn_advise_inVain me hadvise htasks
      exact ⟨_, _, hturn, hpassed ▸ frame.adviseInVain schedule id advised hadvise⟩

/-- To get a token obeys every frame law. -/
theorem obeys_get (id : ManagerId) : id.get.Obeys law := by
  unfold get
  refine (obeys_now frame).bind frame fun now => (obeys_world frame).bind frame fun world =>
    (obeys_check frame _).bind frame fun phase => ?_
  split
  · exact obeys_pure frame _
  · exact (obeys_advise frame id).bind frame fun _ => obeys_pure frame _
  · exact obeys_refreshFor frame id _

/-- To stop background refresh obeys every frame law. -/
theorem obeys_stopBackground (id : ManagerId) : id.stopBackground.Obeys law :=
  .of_finished fun me schedule => ⟨_, _, Schedule.turn_stopBackground me id schedule,
    Schedule.passed_stopBackground me id schedule ▸ frame.giveUp schedule id⟩

/-- To look whether a manager is in use obeys every frame law. -/
theorem obeys_isInUse (id : ManagerId) : id.isInUse.Obeys law :=
  (obeys_world frame).bind frame fun _ => obeys_pure frame _

/-- To stop a loop that nobody uses obeys every frame law. -/
theorem obeys_stopUnlessInUse (id : ManagerId) : id.stopUnlessInUse.Obeys law := by
  refine (obeys_isInUse frame id).bind frame fun inUse => ?_
  split
  · exact obeys_stopBackground frame id
  · exact obeys_pure frame _

/-- To start background refresh obeys every frame law. -/
theorem obeys_startBackground (id : ManagerId) : id.startBackground.Obeys law := by
  refine .of_finished fun me schedule => ?_
  cases hbackground : (schedule.world.manager id).background with
  | some task =>
    obtain ⟨hturn, hpassed⟩ := Schedule.turn_startBackground_of_some me hbackground
    exact ⟨_, _, hturn, hpassed ▸ frame.refl schedule⟩
  | none =>
    cases htasks : schedule.world.canStartTasks with
    | true =>
      obtain ⟨hturn, hpassed⟩ := Schedule.turn_startBackground me hbackground htasks
      exact ⟨_, _, hturn, hpassed ▸ frame.start schedule id hbackground⟩
    | false =>
      obtain ⟨hturn, hpassed⟩ := Schedule.turn_startBackground_inVain me hbackground htasks
      exact ⟨_, _, hturn, hpassed ▸ frame.write schedule _ (.warn schedule.world .noRuntime)⟩

/-- To let go of a manager obeys every frame law. -/
theorem obeys_drop (id : ManagerId) : id.drop.Obeys law :=
  (obeys_modify frame fun world => .drop world id).bind frame fun _ =>
    obeys_stopUnlessInUse frame id

/-- To abandon a call obeys every frame law. -/
theorem obeys_abandon (id : ManagerId) : id.abandon.Obeys law := by
  refine (obeys_me frame).bind frame fun task => ?_
  have hleave : (id.alterAndWake (·.abandon task)).Obeys law :=
    obeys_alterAndWake frame id (fun manager => manager.advisoryInFlight_abandon task)
      fun manager => manager.background_abandon task
  exact hleave.bind frame fun _ => obeys_stopUnlessInUse frame id

/-- To look how long to wait obeys every frame law. -/
theorem obeys_backgroundWait (id : ManagerId) : id.backgroundWait.Obeys law :=
  (obeys_world frame).bind frame fun _ => obeys_check frame _

/-- To wait for the first round obeys every frame law. -/
theorem obeys_awaitFirstRound (id : ManagerId) : id.awaitFirstRound.Obeys law :=
  (obeys_backgroundWait frame id).bind frame fun wait => (obeys_pause frame wait).bind frame
    fun _ => obeys_pure frame _

/-- To wait for the next round obeys every frame law. -/
theorem obeys_awaitRound (id : ManagerId) : id.awaitRound.Obeys law := by
  refine (obeys_backgroundWait frame id).bind frame fun wait => ?_
  split
  · exact (obeys_yield frame).bind frame fun _ => obeys_pure frame _
  · exact (obeys_pause frame wait).bind frame fun _ => obeys_pure frame _

/-- A round of background refresh obeys every frame law. -/
theorem obeys_backgroundRound (id : ManagerId) : id.backgroundRound.Obeys law := by
  refine (obeys_isInUse frame id).bind frame fun inUse => ?_
  split
  · exact obeys_pure frame _
  · refine (obeys_refreshFor frame id .renew).bind frame fun _ =>
      (obeys_isInUse frame id).bind frame fun inUse => ?_
    split
    · exact obeys_pure frame _
    · exact obeys_awaitRound frame id

end ManagerId

/-! ## Caches and providers -/

/-- A change of a cache obeys every frame law. -/
theorem obeys_alterCacheAndWake (id : Nat) (f : CredentialsCache → CredentialsCache) :
    (alterCacheAndWake id f).Obeys law := by
  unfold alterCacheAndWake
  refine (obeys_world frame).bind frame fun world =>
    (obeys_modify frame fun later => .alterCache later _ _).bind frame fun _ => ?_
  split
  · exact obeys_notify frame _
  · exact obeys_pure frame _

/-- To get what is cached obeys every frame law, if the retrieval does. -/
theorem obeys_getCached (id : Nat) (expired : World → Except Overflow Bool)
    {retrieve : Activity Retrieved} (hretrieve : retrieve.Obeys law) :
    (getCached id expired retrieve).Obeys law := by
  have hinside (me : TaskId) : (serveOrRetrieve id me expired retrieve).Obeys law := by
    unfold serveOrRetrieve
    refine (obeys_world frame).bind frame fun world => (obeys_check frame _).bind frame
      fun decided => ?_
    refine (obeys_modify frame fun later => .alterCache later _ _).bind frame fun _ => ?_
    obtain ⟨cache, decision⟩ := decided
    cases decision with
    | serve credentials =>
      exact (obeys_alterCacheAndWake frame id _).bind frame fun _ => obeys_pure frame _
    | retrieve forced =>
      refine hretrieve.bind frame fun result => ?_
      exact (obeys_alterCacheAndWake frame id _).bind frame fun _ => obeys_pure frame _
  unfold getCached
  refine (obeys_me frame).bind frame fun me =>
    (obeys_modify frame fun later => .alterCache later _ _).bind frame fun _ => ?_
  refine (obeys_world frame).bind frame fun world => ?_
  dsimp only
  split
  · exact (obeys_wait frame).bind frame fun _ => hinside me
  · exact hinside me

/-- To ask providers in order obeys every frame law, if all of them do. -/
theorem obeys_askInOrder (chain : Nat) (verbose : Bool) (place : Nat)
    (errors : List CredentialsError) {links : List (Activity Retrieved)}
    (hlinks : ∀ link ∈ links, link.Obeys law) :
    (askInOrder chain verbose place errors links).Obeys law := by
  have hcurrent (current : Option Nat) : (Activity.modify (·.setCurrent chain current)).Obeys law :=
    obeys_modify frame fun _ => .aside rfl rfl
  induction links generalizing place errors with
  | nil => exact (hcurrent none).bind frame fun _ => obeys_pure frame _
  | cons link rest ih =>
    rw [askInOrder]
    refine (hlinks link List.mem_cons_self).bind frame fun result => ?_
    cases result with
    | ok credentials => exact (hcurrent _).bind frame fun _ => obeys_pure frame _
    | error error => exact ih _ _ fun other hother => hlinks other (List.mem_cons_of_mem _ hother)

/-- To retrieve by a role obeys every frame law, if its source does. -/
theorem Role.obeys_retrieve (role : Role) (expiry assumer : Nat) {source : Activity Retrieved}
    (hsource : source.Obeys law) : (role.retrieve expiry assumer source).Obeys law := by
  unfold retrieve
  refine hsource.bind frame fun result => ?_
  cases result with
  | error error => exact obeys_pure frame _
  | ok credentials =>
    refine (obeys_world frame).bind frame fun world => ?_
    split
    · exact obeys_pure frame _
    · refine (obeys_update frame fun later => .aside rfl rfl).bind frame fun answer => ?_
      cases answer with
      | error detail => exact obeys_pure frame _
      | ok assumed =>
        have hnote : (Activity.modify fun world =>
            { world with roles := world.roles.set expiry assumed.expiry }).Obeys law :=
          obeys_modify frame fun world => .aside rfl rfl
        exact hnote.bind frame fun _ => obeys_pure frame _

end Calls

namespace Provider

mutual

/-- Every retrieval obeys every frame law. -/
theorem obeys_retrieve (frame : law.IsFrame) (provider : Provider) :
    provider.retrieve.Obeys law := by
  cases provider with
  | fixed credentials => exact obeys_pure frame _
  | keys credentials => exact obeys_pure frame _
  | diagnostic code detail => exact obeys_pure frame _
  | invalid name error => exact obeys_pure frame _
  | tokens name manager serviceInstance =>
    rw [retrieve]
    exact (ManagerId.obeys_get frame manager).map frame _
  | trustedProfile issuer serviceInstance =>
    rw [retrieve]
    refine Obeys.map frame ?_ _
    exact obeys_update_bind frame (fun world => .exchange world _) fun world =>
      obeys_await frame fun later => .exchange_arrive world later _
  | scripted script =>
    rw [retrieve]
    exact obeys_update_bind frame (fun world => .askProvider world script) fun world =>
      obeys_await frame fun later => .askProvider_arrive world later script
  | chain current verbose links =>
    rw [retrieve]
    exact obeys_askInOrder frame current verbose 0 [] (obeys_retrieveEach frame links)
  | assumed expiry role assumer source =>
    rw [retrieve]
    exact role.obeys_retrieve frame expiry assumer (source.obeys_retrieve frame)
  | cached cache inner =>
    rw [retrieve]
    exact obeys_getCached frame cache _ (inner.obeys_retrieve frame)

/-- All of several retrievals obey every frame law. -/
theorem obeys_retrieveEach (frame : law.IsFrame) (links : List Provider) :
    ∀ link ∈ retrieveEach links, link.Obeys law := by
  cases links with
  | nil => simp [retrieveEach]
  | cons link rest =>
    intro activity hactivity
    rw [retrieveEach] at hactivity
    rcases List.mem_cons.mp hactivity with rfl | hmem
    · exact link.obeys_retrieve frame
    · exact obeys_retrieveEach frame rest activity hmem

end

end Provider

/-! ## Callers and tasks -/

section Tasks

variable (frame : law.IsFrame)
include frame

/-- Whatever callers ask for obeys every frame law. -/
theorem Operation.obeys (operation : Operation) : operation.activity.Obeys law := by
  cases operation with
  | getToken id => exact (ManagerId.obeys_get frame id).map frame _
  | refreshToken id => exact (ManagerId.obeys_refreshFor frame id .renew).map frame _
  | askExpired id =>
    exact ((obeys_world frame).bind frame fun _ => obeys_check frame _).map frame _
  | startBackground id => exact (ManagerId.obeys_startBackground frame id).map frame _
  | stopBackground id => exact (ManagerId.obeys_stopBackground frame id).map frame _
  | dropManager id => exact (ManagerId.obeys_drop frame id).map frame _
  | getCredentials cached =>
    exact (obeys_getCached frame _ _ (cached.inner.obeys_retrieve frame)).map frame _
  | expireCredentials cached =>
    exact (obeys_modify frame fun _ => .alterCache _ _ _).map frame _

/-- To release all managers and caches obeys every frame law. -/
theorem obeys_release (managers caches : Nat) : (release managers caches).Obeys law := by
  refine (obeys_me frame).bind frame fun me => Obeys.bind frame (obeys_forM frame fun id _ => ?_)
    fun _ => obeys_forM frame fun id _ => obeys_alterCacheAndWake frame id _
  exact ManagerId.obeys_alterAndWake frame id
    (fun manager => manager.advisoryInFlight_abandon me) fun manager => manager.background_abandon me

/-- What is left to do when a loop breaks off obeys every frame law. -/
theorem Job.obeys_cleanUp {job : Job} (h : ∀ id, job ≠ .advisory id) : job.cleanUp.Obeys law := by
  cases job with
  | advisory id => exact absurd rfl (h id)
  | background id => exact ManagerId.obeys_abandon frame id
  | round id => exact ManagerId.obeys_abandon frame id

/-- A loop of background refresh obeys every frame law. -/
theorem Job.obeys_activity {job : Job} (h : ∀ id, job ≠ .advisory id) :
    job.activity.Obeys law := by
  cases job with
  | advisory id => exact absurd rfl (h id)
  | background id => exact ManagerId.obeys_awaitFirstRound frame id
  | round id => exact ManagerId.obeys_backgroundRound frame id

end Tasks

end CloudSession
