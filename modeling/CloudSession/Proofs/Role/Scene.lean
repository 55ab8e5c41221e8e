import CloudSession.Proofs.Interleaving.Scene
import CloudSession.Proofs.Role.Stage

/-!
# Scenes around a cached role

The credentials of the last assumption are with the caller that has assumed the role until it
leaves, and in the cache from then on. Only a caller that has assumed the role changes what is
cached and what is noted, so whenever no caller is about to note an expiry, the note tells when the
credentials of the last assumption expire.
-/

namespace CloudSession

/-- Credentials do not count as expired just if it is noted that they expire, and when, and this is
later than the expiry window from now. -/
theorem Role.isExpired_eq_false {role : Role} {noted : Option Instant} {now : Instant} :
    role.isExpired noted now = .ok false ↔ ∃ expiry bound, noted = some expiry ∧
      now.later? role.expiryWindow = .ok bound ∧ bound.nanos < expiry.nanos := by
  unfold isExpired
  cases noted with
  | none => simp
  | some expiry =>
    cases now.later? role.expiryWindow with
    | error fault => simp [bind, Except.bind]
    | ok bound => simp [bind, Except.bind, pure, Except.pure, Instant.atOrBefore]

/-- A later time is later by the span. -/
theorem Instant.later?_eq_ok {time bound : Instant} {span : Span}
    (h : time.later? span = .ok bound) : bound.nanos = time.nanos + span.nanos := by
  unfold later? at h
  split at h
  · exact (Except.ok.inj h) ▸ rfl
  · cases h

/-- An expiry that is noted is the one that was noted last. -/
theorem World.eq_of_noted_note {world : World} {r : Nat} {noted : Option Instant} {expiry : Instant}
    (h : (world.note r noted).noted r = some expiry) : noted = some expiry := by
  unfold World.noted World.note at h
  rw [List.getD_eq_getElem?_getD, List.getElem?_set_self'] at h
  cases hrole : world.roles[r]? with
  | none => simp [hrole] at h
  | some before => simpa [hrole] using h

/-- The scene after a step of a caller. -/
def Scene.step (scene : Scene) (me : TaskId) (later : CacheStage) (world : World) : Scene where
  world := world
  stage := Function.update scene.stage me later

namespace Scene

variable {scene : Scene} {me task : TaskId} {later : CacheStage} {world : World}

/-- After a step, the world is the later one. -/
@[simp] theorem world_step : (scene.step me later world).world = world := rfl

/-- After a step, the caller is at the later stage. -/
@[simp] theorem stage_step_self : (scene.step me later world).stage me = later :=
  Function.update_self ..

/-- After a step, others are where they were. -/
theorem stage_step_of_ne (hne : task ≠ me) :
    (scene.step me later world).stage task = scene.stage task :=
  Function.update_of_ne hne ..

end Scene

namespace CachedRole

variable {cached : CachedRole} {me task : TaskId} {world middle : World} {stage later : CacheStage}
  {scene after : Scene} {event : Event} {credentials : Credentials} {expiry : Instant}

/-! ## Steps -/

namespace Step

/-- A caller that has not assumed the role changes neither what is cached nor what is noted. -/
theorem kept (step : cached.Step me world stage later middle)
    (known : cached.cache < world.caches.length) (hnone : stage.answer? = none) :
    (middle.cache cached.cache).cached = (world.cache cached.cache).cached ∧
      middle.noted cached.note = world.noted cached.note := by
  cases step with
  | arrive =>
    rw [World.cache_alterCache_self known]
    exact ⟨rfl, rfl⟩
  | decide hdecide =>
    rw [World.cache_alterCache_self known, CredentialsCache.eq_of_decide hdecide]
    exact ⟨rfl, rfl⟩
  | serve credentials =>
    rw [World.cache_alterCache_self known]
    exact ⟨rfl, rfl⟩
  | prepare forced spares => exact ⟨by rw [spares.cache], spares.noted⟩
  | assume forced hassumed => exact ⟨rfl, rfl⟩
  | note => cases hnone
  | giveUp forced error =>
    rw [World.cache_alterCache_self known]
    cases forced <;> exact ⟨rfl, rfl⟩
  | settle => cases hnone

/-- A caller that has assumed the role keeps the credentials until it leaves, and then they are
cached. -/
theorem assumed {answer : Retrieved} (step : cached.Step me world stage later middle)
    (known : cached.cache < world.caches.length) (hanswer : stage.answer? = some answer) :
    later.answer? = some answer ∨ later = .gone answer ∧
      ∃ credentials, answer = .ok credentials ∧
        (middle.cache cached.cache).cached = some credentials := by
  cases step with
  | note forced credentials => exact .inl hanswer
  | settle forced credentials =>
    obtain rfl : .ok credentials = answer := Option.some.inj hanswer
    rw [World.cache_alterCache_self known]
    exact .inr ⟨rfl, credentials, rfl, rfl⟩
  | _ => cases hanswer

/-- A caller that has not just assumed the role notes nothing. -/
theorem noted_of_not_asked (step : cached.Step me world stage later middle)
    (hasked : ¬ stage.IsAsked) : middle.noted cached.note = world.noted cached.note := by
  cases step with
  | prepare forced spares => exact spares.noted
  | note forced credentials => exact absurd trivial hasked
  | _ => rfl

/-- Once the role has been assumed, the caller notes the expiry. -/
theorem note_of_asked (step : cached.Step me world stage later middle) (hasked : stage.IsAsked) :
    ∃ credentials, later.answer? = some (.ok credentials) ∧
      middle = world.note cached.note credentials.expiry := by
  cases step with
  | note forced credentials => exact ⟨credentials, rfl, rfl⟩
  | _ => exact hasked.elim

/-- A caller gets an answer by assuming the role. -/
theorem answer_cases {answer : Retrieved} (step : cached.Step me world stage later middle)
    (hanswer : later.answer? = some answer) :
    stage.answer? = some answer ∧ ¬ later.IsAsked ∨ later.IsAsked ∧ ∃ source request assumed,
      answer = .ok (Role.handOut assumed) ∧
        world.assume cached.assumer source request = (middle, .ok assumed) := by
  cases step with
  | @assume forced source assumed request hassumed =>
    have hanswer : .ok (Role.handOut assumed) = answer := Option.some.inj hanswer
    exact .inr ⟨trivial, source, request, assumed, hanswer.symm, Prod.ext rfl hassumed⟩
  | note forced credentials => exact .inl ⟨hanswer, id⟩
  | _ => cases hanswer

/-- A caller leaves with credentials that it has got by assuming the role, or with cached ones that
it has found not to count as expired. -/
theorem yield_cases (step : cached.Step me world stage later middle)
    (hyield : later.yield? = some credentials) :
    stage.yield? = some credentials ∨ stage.answer? = some (.ok credentials) ∨
      stage = .atGate ∧ (world.cache cached.cache).cached = some credentials ∧
        cached.role.isExpired (world.noted cached.note) world.now = .ok false := by
  cases step with
  | @decide cache decision hdecide =>
    cases decision with
    | retrieve => cases hyield
    | serve served =>
      obtain rfl : served = credentials := Option.some.inj hyield
      obtain ⟨hcached, -, hexpired⟩ := CredentialsCache.served_of_decide hdecide
      exact .inr (.inr ⟨rfl, hcached, hexpired⟩)
  | serve served => exact .inl hyield
  | settle forced fetched =>
    obtain rfl : fetched = credentials := Option.some.inj hyield
    exact .inr (.inl rfl)
  | _ => cases hyield

/-- A caller that leaves was inside. One that leaves with an error has not assumed the role. -/
theorem gone_cases {result : Retrieved} (step : cached.Step me world stage (.gone result) middle) :
    stage.IsInside ∧ ∀ error, result = .error error → stage.answer? = none := by
  cases step with
  | serve served => exact ⟨trivial, fun error herror => by cases herror⟩
  | giveUp forced failure => exact ⟨trivial, fun _ _ => rfl⟩
  | settle forced fetched => exact ⟨trivial, fun error herror => by cases herror⟩

/-- Whoever is inside the gate stays there, unless it is the caller and leaves. -/
theorem holder_cases (step : cached.Step me world stage later middle)
    (known : cached.cache < world.caches.length)
    (hholder : (world.cache cached.cache).gate.holder = some task) :
    (middle.cache cached.cache).gate.holder = some task ∨
      task = me ∧ ∃ result, later = .gone result := by
  have hleave (cache : CredentialsCache) (result : Retrieved)
      (hgate : cache.gate = (world.cache cached.cache).gate) :
      (cache.leave me).gate.holder = some task ∨
        task = me ∧ ∃ other, CacheStage.gone result = .gone other :=
    (CredentialsCache.leave_holder_cases (hgate ▸ hholder)).imp_right fun h => ⟨h, result, rfl⟩
  cases step with
  | arrive =>
    rw [World.cache_alterCache_self known]
    left
    simp [CredentialsCache.arrive, Gate.arrive, hholder]
  | decide hdecide =>
    rw [World.cache_alterCache_self known, CredentialsCache.eq_of_decide hdecide]
    exact .inl hholder
  | serve credentials =>
    rw [World.cache_alterCache_self known]
    exact hleave _ _ rfl
  | prepare forced spares =>
    rw [spares.cache]
    exact .inl hholder
  | assume forced hassumed => exact .inl hholder
  | note forced credentials => exact .inl hholder
  | giveUp forced error =>
    rw [World.cache_alterCache_self known]
    exact hleave _ _ (CredentialsCache.settle_gate _ _)
  | settle forced credentials =>
    rw [World.cache_alterCache_self known]
    exact hleave _ _ (CredentialsCache.settle_gate _ _)

end Step

/-! ## Scenes -/

/-- What can come next. -/
inductive Next (cached : CachedRole) (scene : Scene) : Event → Scene → Prop
  | outside {world : World} : scene.world.Outside world →
      Next cached scene .outside { scene with world }
  | call (task : TaskId) : Next cached scene (.call task) scene
  | expiry : Next cached scene .expiry
      { scene with world := scene.world.alterCache cached.cache CredentialsCache.expire }
  /-- A caller goes on and changes nothing. -/
  | idle {task : TaskId} : ¬ (scene.stage task).IsAsked → Next cached scene (.stride task) scene
  | step {task : TaskId} {stage : CacheStage} {world : World} :
      ¬ scene.world.IsWaiting task → cached.Step task scene.world (scene.stage task) stage world →
      Next cached scene (.stride task) (scene.step task stage world)

/-- A step of a caller that has its turn keeps what holds in every scene. -/
theorem Step.sound (sound : scene.Sound cached.cache) (hadmitted : ¬ scene.world.IsWaiting me)
    (step : cached.Step me scene.world (scene.stage me) later world) :
    (scene.step me later world).Sound cached.cache := by
  have hholder (h : (scene.stage me).IsPresent) := sound.holder_eq h hadmitted
  obtain ⟨known, admits⟩ := sound
  generalize hstage : scene.stage me = before at step hholder
  cases step with
  | arrive => exact .of_alterCache known (admits.arrive hstage)
  | decide hdecide =>
    refine .of_alterCache known ?_
    rw [CredentialsCache.eq_of_decide hdecide]
    exact admits.stay (by rw [hstage]; exact Iff.rfl) fun _ => hholder trivial
  | serve credentials => exact .of_alterCache known (admits.goAway id)
  | prepare forced spares =>
    refine ⟨by rwa [Scene.world_step, spares.cacheCount], ?_⟩
    rw [Scene.world_step, spares.cache]
    exact admits.stay (by rw [hstage]) fun _ => hholder trivial
  | assume forced hassumed =>
    exact ⟨known, admits.stay (by rw [hstage]; exact Iff.rfl) fun _ => hholder trivial⟩
  | note forced credentials =>
    exact ⟨known, admits.stay (by rw [hstage]; exact Iff.rfl) fun _ => hholder trivial⟩
  | giveUp forced error =>
    refine .of_alterCache known ?_
    rw [CredentialsCache.leave, CredentialsCache.settle_gate]
    exact admits.goAway id
  | settle forced credentials =>
    refine .of_alterCache known ?_
    rw [CredentialsCache.leave, CredentialsCache.settle_gate]
    exact admits.goAway id

namespace Next

/-- Whatever comes next keeps what holds in every scene. -/
theorem sound (sound : scene.Sound cached.cache) (next : cached.Next scene event after) :
    after.Sound cached.cache := by
  cases next with
  | outside outside =>
    refine ⟨outside.caches ▸ sound.known, ?_⟩
    rw [outside.cache_eq]
    exact sound.admits
  | call => exact sound
  | expiry => exact .of_alterCache sound.known sound.admits
  | idle => exact sound
  | step hadmitted step => exact step.sound sound hadmitted

/-- A caller stays at its stage, or does a step. It cannot stay where it has assumed the role. -/
theorem stage_cases (next : cached.Next scene event after) (task : TaskId) :
    after.stage task = scene.stage task ∧ (event = .stride task → ¬ (scene.stage task).IsAsked) ∨
      event = .stride task ∧ ¬ scene.world.IsWaiting task ∧
        cached.Step task scene.world (scene.stage task) (after.stage task) after.world := by
  cases next with
  | @idle other hidle =>
    refine .inl ⟨rfl, fun hevent => ?_⟩
    obtain rfl : other = task := Event.stride.inj hevent
    exact hidle
  | @step other stage world hadmitted step =>
    by_cases heq : task = other
    · subst heq
      exact .inr ⟨rfl, hadmitted, by rwa [Scene.stage_step_self]⟩
    · refine .inl ⟨Scene.stage_step_of_ne heq, fun hevent => ?_⟩
      exact absurd (Event.stride.inj hevent).symm heq
  | _ => exact .inl ⟨rfl, fun hevent => by cases hevent⟩

/-- Whoever is inside the gate stays there or leaves. -/
theorem holder_cases (sound : scene.Sound cached.cache) (next : cached.Next scene event after)
    (hholder : (scene.world.cache cached.cache).gate.holder = some task) :
    (after.world.cache cached.cache).gate.holder = some task ∨
      ∃ result, after.stage task = .gone result := by
  cases next with
  | outside outside =>
    rw [outside.cache_eq]
    exact .inl hholder
  | call => exact .inl hholder
  | expiry =>
    rw [World.cache_alterCache_self sound.known]
    exact .inl hholder
  | idle => exact .inl hholder
  | step hadmitted step =>
    rcases step.holder_cases sound.known hholder with hstays | ⟨rfl, result, hgone⟩
    · exact .inl hstays
    · exact .inr ⟨result, by rw [Scene.stage_step_self, hgone]⟩

/-- As long as the caller inside the gate has not assumed the role, what is cached and what is noted
stay. -/
theorem kept (sound : scene.Sound cached.cache) (next : cached.Next scene event after)
    (hholder : (scene.world.cache cached.cache).gate.holder = some task)
    (hnone : (scene.stage task).answer? = none) :
    (after.world.cache cached.cache).cached = (scene.world.cache cached.cache).cached ∧
      after.world.noted cached.note = scene.world.noted cached.note := by
  cases next with
  | outside outside => exact ⟨by rw [outside.cache_eq], by rw [World.noted, outside.roles]; rfl⟩
  | call => exact ⟨rfl, rfl⟩
  | expiry =>
    rw [World.cache_alterCache_self sound.known]
    exact ⟨rfl, rfl⟩
  | idle => exact ⟨rfl, rfl⟩
  | @step me later world hadmitted step =>
    refine step.kept sound.known ?_
    -- whoever has assumed the role would be the caller inside
    cases hanswer : (scene.stage me).answer? with
    | none => rfl
    | some answer =>
      have hme := sound.admits.inside me (CacheStage.isInside_of_answer hanswer)
      obtain rfl : task = me := Option.some.inj (hholder.symm.trans hme)
      exact absurd hanswer (by simp [hnone])

end Next

/-! ## The last assumption -/

/-- The credentials of the last assumption: a caller that has assumed the role has them until it
leaves, and if there is no such caller, they are cached. -/
def Current (cached : CachedRole) (scene : Scene) (credentials : Credentials) : Prop :=
  (∃ task, (scene.stage task).answer? = some (.ok credentials)) ∨
    (∀ task, (scene.stage task).answer? = none) ∧
      (scene.world.cache cached.cache).cached = some credentials

/-- At most one caller has decided what to do inside the gate. -/
theorem eq_of_inside (sound : scene.Sound cached.cache) (hme : (scene.stage me).IsInside)
    (htask : (scene.stage task).IsInside) : task = me := by
  have hholder := sound.admits.inside me hme
  exact Option.some.inj ((sound.admits.inside task htask).symm.trans hholder)

/-- The credentials of the last assumption are unique. -/
theorem Current.unique (sound : scene.Sound cached.cache)
    (hcurrent : cached.Current scene credentials) {others : Credentials}
    (hanswer : (scene.stage me).answer? = some (.ok others)) : others = credentials := by
  rcases hcurrent with ⟨task, htask⟩ | ⟨hnone, -⟩
  · obtain rfl : task = me := eq_of_inside sound (CacheStage.isInside_of_answer hanswer)
      (CacheStage.isInside_of_answer htask)
    exact Except.ok.inj (Option.some.inj (hanswer.symm.trans htask))
  · rw [hnone me] at hanswer
    cases hanswer

/-- An expiry by hand does not matter to the credentials of the last assumption. -/
theorem Current.of_expiry (known : cached.cache < scene.world.caches.length)
    (hcurrent : cached.Current { scene with
      world := scene.world.alterCache cached.cache CredentialsCache.expire } credentials) :
    cached.Current scene credentials := by
  have hcached : ((scene.world.alterCache cached.cache CredentialsCache.expire).cache
      cached.cache).cached = (scene.world.cache cached.cache).cached := by
    rw [World.cache_alterCache_self known]
    rfl
  simpa only [Current, hcached] using hcurrent

/-- After a step, the credentials of the last assumption are those of before, or the caller has just
assumed the role. -/
theorem Step.current_cases (sound : scene.Sound cached.cache)
    (hadmitted : ¬ scene.world.IsWaiting me)
    (step : cached.Step me scene.world (scene.stage me) later world)
    (hcurrent : cached.Current (scene.step me later world) credentials) :
    cached.Current scene credentials ∧ ¬ later.IsAsked ∨
      later.IsAsked ∧ later.answer? = some (.ok credentials) := by
  by_cases hasked : later.IsAsked
  · right
    obtain ⟨answer, hanswer⟩ := CacheStage.exists_answer hasked
    rcases step.answer_cases hanswer with ⟨-, hnot⟩ | ⟨-, source, request, assumed, rfl, -⟩
    · exact absurd hasked hnot
    · have hme : ((scene.step me later world).stage me).answer? =
          some (.ok (Role.handOut assumed)) := by rwa [Scene.stage_step_self]
      rw [hcurrent.unique (step.sound sound hadmitted) hme] at hanswer
      exact ⟨hasked, hanswer⟩
  · refine .inl ⟨?_, hasked⟩
    rcases hcurrent with ⟨task, htask⟩ | ⟨hnone, hcached⟩
    · by_cases heq : task = me
      · subst heq
        rw [Scene.stage_step_self] at htask
        rcases step.answer_cases htask with ⟨hbefore, -⟩ | ⟨hnow, -⟩
        · exact .inl ⟨task, hbefore⟩
        · exact absurd hnow hasked
      · rw [Scene.stage_step_of_ne heq] at htask
        exact .inl ⟨task, htask⟩
    · have hother (task : TaskId) (hne : task ≠ me) : (scene.stage task).answer? = none := by
        have h := hnone task
        rwa [Scene.stage_step_of_ne hne] at h
      cases hme : (scene.stage me).answer? with
      | none =>
        obtain ⟨hsame, -⟩ := step.kept sound.known hme
        refine .inr ⟨fun task => ?_, hsame.symm.trans hcached⟩
        by_cases heq : task = me
        · exact heq ▸ hme
        · exact hother task heq
      | some answer =>
        rcases step.assumed sound.known hme with hlater | ⟨-, fetched, rfl, hfetched⟩
        · have h := hnone me
          rw [Scene.stage_step_self, hlater] at h
          cases h
        · obtain rfl : fetched = credentials := Option.some.inj (hfetched.symm.trans hcached)
          exact .inl ⟨me, hme⟩

/-- Whatever comes next, the credentials of the last assumption are those of before, or a caller has
just assumed the role. -/
theorem Next.current_cases (sound : scene.Sound cached.cache) (next : cached.Next scene event after)
    (hcurrent : cached.Current after credentials) :
    (cached.Current scene credentials ∧
        ∀ task, event = .stride task → ¬ (after.stage task).IsAsked) ∨
      ∃ task, event = .stride task ∧ (after.stage task).IsAsked ∧
        (after.stage task).answer? = some (.ok credentials) := by
  cases next with
  | outside outside =>
    refine .inl ⟨?_, fun _ hevent => by cases hevent⟩
    simpa only [Current, outside.cache_eq] using hcurrent
  | call => exact .inl ⟨hcurrent, fun _ hevent => by cases hevent⟩
  | expiry =>
    exact .inl ⟨hcurrent.of_expiry sound.known, fun _ hevent => by cases hevent⟩
  | @idle task hidle =>
    refine .inl ⟨hcurrent, fun other hevent => ?_⟩
    obtain rfl : task = other := Event.stride.inj hevent
    exact hidle
  | @step me later world hadmitted step =>
    simp only [Event.stride.injEq]
    rcases step.current_cases sound hadmitted hcurrent with ⟨hbefore, hnot⟩ | hassumed
    · refine .inl ⟨hbefore, ?_⟩
      rintro _ rfl
      rwa [Scene.stage_step_self]
    · refine .inr ⟨me, rfl, ?_⟩
      rwa [Scene.stage_step_self]

/-! ## The note -/

/-- Unless a caller is about to note another expiry, the note is about the credentials of the last
assumption. -/
def Agrees (cached : CachedRole) (scene : Scene) : Prop :=
  (∀ task, ¬ (scene.stage task).IsAsked) → ∀ credentials, cached.Current scene credentials →
    ∀ expiry, scene.world.noted cached.note = some expiry → credentials.expiry = some expiry

/-- A step leaves the note about the credentials of the last assumption. -/
theorem Step.agrees (sound : scene.Sound cached.cache) (agrees : cached.Agrees scene)
    (hadmitted : ¬ scene.world.IsWaiting me)
    (step : cached.Step me scene.world (scene.stage me) later world) :
    cached.Agrees (scene.step me later world) := by
  intro hsettled credentials hcurrent expiry hnoted
  by_cases hasked : (scene.stage me).IsAsked
  · obtain ⟨fetched, hfetched, hnote⟩ := step.note_of_asked hasked
    have hme : ((scene.step me later world).stage me).answer? = some (.ok fetched) := by
      rwa [Scene.stage_step_self]
    rw [Scene.world_step, hnote] at hnoted
    rw [← hcurrent.unique (step.sound sound hadmitted) hme]
    exact World.eq_of_noted_note hnoted
  · have hsame := step.noted_of_not_asked hasked
    rcases step.current_cases sound hadmitted hcurrent with ⟨hbefore, -⟩ | ⟨hnow, -⟩
    · refine agrees (fun task => ?_) credentials hbefore expiry (hsame.symm.trans hnoted)
      by_cases heq : task = me
      · exact heq ▸ hasked
      · exact Scene.stage_step_of_ne heq ▸ hsettled task
    · exact absurd (by rwa [Scene.stage_step_self]) (hsettled me)

/-- Whatever comes next leaves the note about the credentials of the last assumption. -/
theorem Next.agrees (sound : scene.Sound cached.cache) (agrees : cached.Agrees scene)
    (next : cached.Next scene event after) : cached.Agrees after := by
  cases next with
  | outside outside =>
    simpa only [Agrees, Current, outside.cache_eq, World.noted, outside.roles] using agrees
  | call => exact agrees
  | expiry =>
    intro hsettled credentials hcurrent
    exact agrees hsettled credentials (hcurrent.of_expiry sound.known)
  | idle => exact agrees
  | step hadmitted step => exact step.agrees sound agrees hadmitted

end CachedRole

end CloudSession
