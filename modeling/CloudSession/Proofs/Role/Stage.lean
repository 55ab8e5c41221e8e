import CloudSession.Proofs.Activity.Spares
import CloudSession.Proofs.CredentialsCache.Stage

/-!
# How far a caller of a cached role is

A caller of a cache in front of a role arrives at the gate and decides what to do once it is inside.
If it retrieves, it turns to the source of the role and to the second factor, and then to the
assumer; what comes before a success of the assumer touches neither the cache nor the note of the
expiry. After a success the caller notes the expiry, and only then caches the credentials. The
stages are those of any caller of a cache, where `asked` means that the role has been assumed and
`answered` that its expiry has been noted as well.
-/

namespace CloudSession

/-- The expiry that is noted for a role is that of the credentials that it hands out. -/
@[simp] theorem Role.expiry_handOut (assumed : Credentials) :
    (Role.handOut assumed).expiry = assumed.expiry := by
  unfold Role.handOut
  cases assumed.expiry <;> rfl

/-- A role behind a cache. The source of the role knows neither the cache nor the note of when the
credentials of the role expire. -/
structure CachedRole where
  cache : Nat
  /-- The name of the note. -/
  note : Nat
  role : Role
  assumer : Nat
  source : Provider
  alone : source.Avoids cache note

namespace CachedRole

/-- The role as a provider behind the cache. -/
def provider (cached : CachedRole) : CachedProvider where
  cache := cached.cache
  inner := .assumed cached.note cached.role cached.assumer cached.source

/-- The next step of a caller. -/
inductive Step (cached : CachedRole) (me : TaskId) (world : World) :
    CacheStage → CacheStage → World → Prop
  | arrive : Step cached me world .away .atGate (world.alterCache cached.cache (·.arrive me))
  | decide {cache : CredentialsCache} {decision : CredentialsCache.Decision}
      (hdecide : (world.cache cached.cache).decide
        (cached.role.isExpired (world.noted cached.note) world.now) = .ok (cache, decision)) :
    Step cached me world .atGate (.decided decision)
      (world.alterCache cached.cache fun _ => cache)
  | serve (credentials : Credentials) :
    Step cached me world (.decided (.serve credentials)) (.gone (.ok credentials))
      (world.alterCache cached.cache fun _ => (world.cache cached.cache).leave me)
  /-- The caller is busy with the source, or the assumer declines. -/
  | prepare (forced : Bool) {after : World} (spares : world.Spares cached.cache cached.note after) :
    Step cached me world (.decided (.retrieve forced)) (.decided (.retrieve forced)) after
  | assume (forced : Bool) {source assumed : Credentials} {request : RoleRequest}
      (hassumed : (world.assume cached.assumer source request).2 = .ok assumed) :
    Step cached me world (.decided (.retrieve forced))
      (.asked forced (.ok (Role.handOut assumed))) (world.assume cached.assumer source request).1
  | note (forced : Bool) (credentials : Credentials) :
    Step cached me world (.asked forced (.ok credentials)) (.answered forced (.ok credentials))
      (world.note cached.note credentials.expiry)
  | giveUp (forced : Bool) (error : CredentialsError) :
    Step cached me world (.decided (.retrieve forced)) (.gone (.error error))
      (world.alterCache cached.cache fun _ =>
        ((world.cache cached.cache).settle forced (.error error)).leave me)
  | settle (forced : Bool) (credentials : Credentials) :
    Step cached me world (.answered forced (.ok credentials)) (.gone (.ok credentials))
      (world.alterCache cached.cache fun _ =>
        ((world.cache cached.cache).settle forced (.ok credentials)).leave me)

end CachedRole

namespace Activity

variable {α β : Type} {cached : CachedRole} {me : TaskId} {stage : CacheStage} {world : World}
  {post : α → CacheStage → World → Prop} {forced : Bool}

/-- The activity of a caller that is at this stage does steps of the caller, and `post` holds at the
end. Once the role has been assumed, the caller does not stop before it has noted the expiry. -/
def Performs (cached : CachedRole) (me : TaskId) (post : α → CacheStage → World → Prop) :
    Activity α → CacheStage → World → Prop
  | .done value, stage, world => post value stage world
  | .fail _, stage, _ => ¬ stage.IsAsked
  | .read next, stage, world => (next world).Performs cached me post stage world
  | .clock next, stage, _ =>
    ¬ stage.IsAsked ∧ ∀ time world, (next time).Performs cached me post stage world
  | .write after next, stage, world =>
    ∃ later, cached.Step me world stage later after ∧
      ∀ world, next.Performs cached me post later world
  | .self next, stage, world => (next me).Performs cached me post stage world
  | .park next, stage, _ | .pass next, stage, _ | .sleep _ next, stage, _
  | .abort _ next, stage, _ =>
    ¬ stage.IsAsked ∧ ∀ world, next.Performs cached me post stage world
  | .wake _ next, stage, world => next.Performs cached me post stage world
  | .spawn _ next, stage, _ =>
    ¬ stage.IsAsked ∧ ∀ task world, (next task).Performs cached me post stage world

/-- One activity after another performs what the first leads to, and from there on what the second
does. -/
theorem performs_bind {activity : Activity α} {f : α → Activity β}
    {post : β → CacheStage → World → Prop} :
    (activity >>= f).Performs cached me post stage world ↔
      activity.Performs cached me (fun value => (f value).Performs cached me post) stage world := by
  change (activity.bind f).Performs cached me post stage world ↔ _
  induction activity generalizing stage world with
  | done value => exact Iff.rfl
  | fail => exact Iff.rfl
  | read next ih => exact ih _
  | clock next ih =>
    exact and_congr_right fun _ => forall_congr' fun time => forall_congr' fun _ => ih time
  | write after next ih =>
    exact exists_congr fun _ => and_congr_right fun _ => forall_congr' fun _ => ih
  | self next ih => exact ih _
  | park next ih => exact and_congr_right fun _ => forall_congr' fun _ => ih
  | pass next ih => exact and_congr_right fun _ => forall_congr' fun _ => ih
  | sleep span next ih => exact and_congr_right fun _ => forall_congr' fun _ => ih
  | wake task next ih => exact ih
  | spawn job next ih =>
    exact and_congr_right fun _ => forall_congr' fun task => forall_congr' fun _ => ih task
  | abort task next ih => exact and_congr_right fun _ => forall_congr' fun _ => ih

/-- What holds at the end may be weakened. -/
theorem Performs.mono {strong : α → CacheStage → World → Prop} {activity : Activity α}
    (h : activity.Performs cached me strong stage world)
    (hpost : ∀ value later last, strong value later last → post value later last) :
    activity.Performs cached me post stage world := by
  induction activity generalizing stage world with
  | done value => exact hpost value stage world h
  | fail => exact h
  | read next ih => exact ih _ h
  | clock next ih => exact ⟨h.1, fun time last => ih time (h.2 time last)⟩
  | write after next ih =>
    obtain ⟨later, step, hnext⟩ := h
    exact ⟨later, step, fun last => ih (hnext last)⟩
  | self next ih => exact ih _ h
  | park next ih => exact ⟨h.1, fun last => ih (h.2 last)⟩
  | pass next ih => exact ⟨h.1, fun last => ih (h.2 last)⟩
  | sleep span next ih => exact ⟨h.1, fun last => ih (h.2 last)⟩
  | wake task next ih => exact ih h
  | spawn job next ih => exact ⟨h.1, fun task last => ih task (h.2 task last)⟩
  | abort task next ih => exact ⟨h.1, fun last => ih (h.2 last)⟩

/-- A caller that retrieves is still at it after anything that spares the cache and the note. -/
theorem SparesFrom.performs {activity : Activity α}
    (spares : activity.SparesFrom cached.cache cached.note world)
    (hpost : ∀ value later, post value (.decided (.retrieve forced)) later) :
    activity.Performs cached me post (.decided (.retrieve forced)) world := by
  induction activity generalizing world with
  | done value => exact hpost value world
  | fail => exact id
  | read next ih => exact ih _ spares
  | clock next ih => exact ⟨id, fun time later => ih time (spares time later)⟩
  | write after next ih => exact ⟨_, .prepare forced spares.1, fun later => ih (spares.2 later)⟩
  | self next ih => exact ih me (spares me)
  | park next ih => exact ⟨id, fun later => ih (spares later)⟩
  | pass next ih => exact ⟨id, fun later => ih (spares later)⟩
  | sleep span next ih => exact ⟨id, fun later => ih (spares later)⟩
  | wake task next ih => exact ih spares
  | spawn job next ih => exact ⟨id, fun task later => ih task (spares task later)⟩
  | abort task next ih => exact ⟨id, fun later => ih (spares later)⟩

/-- To read the world is no step. -/
theorem performs_world {post : World → CacheStage → World → Prop} :
    Activity.world.Performs cached me post stage world ↔ post world stage world := Iff.rfl

/-- A change of the world that has a result has to be a step. -/
theorem performs_update {f : World → World × α} {later : CacheStage}
    (step : cached.Step me world stage later (f world).1)
    (hpost : ∀ last, post (f world).2 later last) :
    (update f).Performs cached me post stage world :=
  ⟨later, step, hpost⟩

/-- A change of the world has to be a step. -/
theorem performs_modify {f : World → World} {later : CacheStage}
    {post : Unit → CacheStage → World → Prop} (step : cached.Step me world stage later (f world))
    (hpost : ∀ last, post () later last) : (modify f).Performs cached me post stage world :=
  ⟨later, step, hpost⟩

/-- To wake a task is no step. -/
theorem performs_notify {task? : Option TaskId} {post : Unit → CacheStage → World → Prop}
    (hpost : post () stage world) : (notify task?).Performs cached me post stage world := by
  cases task? <;> exact hpost

/-- A caller that changes the cache in a step goes on after it, whoever is let in by that. -/
theorem performs_alterCacheAndWake {f : CredentialsCache → CredentialsCache} {later : CacheStage}
    {post : Unit → CacheStage → World → Prop}
    (step : ∀ world : World, cached.Step me world stage later
      (world.alterCache cached.cache fun _ => f (world.cache cached.cache)))
    (hpost : ∀ world, post () later world) :
    (alterCacheAndWake cached.cache f).Performs cached me post stage world := by
  unfold alterCacheAndWake
  refine performs_bind.mpr (performs_bind.mpr ⟨later, step world, fun last => ?_⟩)
  split
  · exact performs_notify (hpost last)
  · exact hpost last

/-- How far a caller is that has retrieved: after a success, the expiry is noted, and after a
failure nothing has happened. -/
def Retrieves (forced : Bool) : Retrieved → CacheStage → World → Prop
  | .ok credentials, stage, _ => stage = .answered forced (.ok credentials)
  | .error _, stage, _ => stage = .decided (.retrieve forced)

/-- A caller that retrieves assumes the role and notes the expiry, or leaves it at that. -/
theorem performs_retrieve :
    cached.provider.inner.retrieve.Performs cached me (Retrieves forced)
      (.decided (.retrieve forced)) world := by
  change (Provider.assumed _ _ _ _).retrieve.Performs _ _ _ _ _
  rw [Provider.retrieve]
  unfold Role.retrieve
  refine performs_bind.mpr ?_
  refine (cached.source.spares_retrieve cached.alone world).performs fun result later => ?_
  cases result with
  | error error => rfl
  | ok source =>
    refine performs_bind.mpr (performs_world.mpr ?_)
    cases cached.role.completed (later.secondFactor cached.role) with
    | error error => rfl
    | ok request =>
      cases hassumed : (later.assume cached.assumer source request).2 with
      | error detail =>
        refine performs_bind.mpr (performs_update (.prepare forced (.assume later _ _ _)) ?_)
        intro last
        rw [hassumed]
        rfl
      | ok assumed =>
        refine performs_bind.mpr (performs_update (.assume forced hassumed) fun last => ?_)
        rw [hassumed]
        refine performs_bind.mpr (performs_modify ?_ fun _ => rfl)
        have hnote : cached.Step me last _ _ _ := .note forced (Role.handOut assumed)
        rwa [Role.expiry_handOut] at hnote

/-- A caller inside the gate takes what is cached or retrieves. -/
theorem performs_serveOrRetrieve :
    (serveOrRetrieve cached.cache me (fun world => cached.provider.inner.isExpired world)
      cached.provider.inner.retrieve).Performs cached me Leaves .atGate world := by
  unfold serveOrRetrieve
  refine performs_bind.mpr (performs_bind.mpr ?_)
  cases hdecide : (world.cache cached.cache).decide (cached.provider.inner.isExpired world) with
  | error fault => exact id
  | ok decided =>
    obtain ⟨cache, decision⟩ := decided
    refine performs_bind.mpr (performs_modify (.decide hdecide) fun later => ?_)
    cases decision with
    | serve credentials =>
      refine performs_bind.mpr (performs_alterCacheAndWake ?_ fun _ => rfl)
      exact fun _ => .serve credentials
    | retrieve forced =>
      refine performs_bind.mpr (performs_retrieve.mono fun result stage last hresult => ?_)
      cases result with
      | error error =>
        obtain rfl : stage = .decided (.retrieve forced) := hresult
        refine performs_bind.mpr (performs_alterCacheAndWake ?_ fun _ => rfl)
        exact fun _ => .giveUp forced error
      | ok credentials =>
        obtain rfl : stage = .answered forced (.ok credentials) := hresult
        refine performs_bind.mpr (performs_alterCacheAndWake ?_ fun _ => rfl)
        exact fun _ => .settle forced credentials

/-- A caller of a cached role arrives at the gate, and goes on inside. -/
theorem performs_get : cached.provider.get.Performs cached me Leaves .away world := by
  unfold CachedProvider.get getCached
  refine performs_bind.mpr (performs_bind.mpr (performs_modify .arrive fun later => ?_))
  refine performs_bind.mpr ?_
  change Performs cached me _ (if _ then _ else _) _ _
  split
  · exact performs_bind.mpr ⟨id, fun last => performs_serveOrRetrieve⟩
  · exact performs_serveOrRetrieve

end Activity

/-- A caller whose turn has come so far is at this stage. -/
def Turn.IsOf (cached : CachedRole) (me : TaskId) : Turn Retrieved → CacheStage → Prop
  | .finished result, stage => stage = .gone result
  | .failed _, stage => ¬ stage.IsAsked
  | .waiting rest, stage => ∀ world, rest.Performs cached me Activity.Leaves stage world

section Strides

variable {cached : CachedRole} {me : TaskId} {stage : CacheStage} {world : World}
  {rest : Activity Retrieved}

/-- A stride of a caller is a step, or changes nothing; the latter not while an assumed role waits
for its expiry to be noted. -/
theorem Activity.Performs.stride (h : rest.Performs cached me Leaves stage world) :
    (∃ later, cached.Step me world stage later (rest.stride me world).2 ∧
        (rest.stride me world).1.IsOf cached me later) ∨
      (rest.stride me world).2 = world ∧ ¬ stage.IsAsked ∧
        (rest.stride me world).1.IsOf cached me stage := by
  induction rest generalizing stage world with
  | done result =>
    obtain rfl : stage = .gone result := h
    exact .inr ⟨rfl, id, rfl⟩
  | fail => exact .inr ⟨rfl, h, h⟩
  | read next ih => exact ih _ h
  | clock next => exact .inr ⟨rfl, h.1, fun later => h.2 _ later⟩
  | write after next => exact .inl h
  | self next ih => exact ih _ h
  | park next => exact .inr ⟨rfl, h.1, h.2⟩
  | pass next => exact .inr ⟨rfl, h.1, h.2⟩
  | sleep span next => exact .inr ⟨rfl, h.1, h.2⟩
  | wake task next ih => exact ih h
  | spawn job next => exact .inr ⟨rfl, h.1, fun _ => h⟩
  | abort task next => exact .inr ⟨rfl, h.1, fun _ => h⟩

/-- A caller that has assumed the role notes the expiry next, whatever the world is by then. -/
theorem Activity.Performs.note {credentials : Credentials}
    (h : rest.Performs cached me Leaves stage world) (hasked : stage.IsAsked)
    (hanswer : stage.answer? = some (.ok credentials)) :
    (rest.stride me world).2 = world.note cached.note credentials.expiry := by
  rcases h.stride with ⟨later, step, -⟩ | ⟨-, hnot, -⟩
  · generalize (rest.stride me world).2 = after at step ⊢
    cases step with
    | note forced fetched =>
      obtain rfl : fetched = credentials := Except.ok.inj (Option.some.inj hanswer)
      rfl
    | _ => exact hasked.elim
  · exact absurd hasked hnot

end Strides

end CloudSession
