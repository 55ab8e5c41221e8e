import CloudSession.Proofs.Interleaving.Run

/-!
# Scenes

A scene is the world together with the stages at which the callers of a cache are. In every scene,
those at the gate are just those whose stage says so, and only the one that the gate has let in has
decided what to do; this says already who is inside over time. What a step does to the cached
credentials and to an expiry by hand is said here once; the rest is about runs.
-/

namespace CloudSession

/-- A change of a cache that exists changes it. -/
theorem World.cache_alterCache_self {world : World} {c : Nat} (known : c < world.caches.length)
    (f : CredentialsCache → CredentialsCache) :
    (world.alterCache c f).cache c = f (world.cache c) := by
  rw [World.cache_alterCache, if_pos ⟨rfl, known⟩]

/-- The world and the stages of the callers of a cache. -/
structure Scene where
  world : World
  stage : TaskId → CacheStage

/-- What can come next. -/
inductive Scene.Next (c script : Nat) (scene : Scene) : Event → Scene → Prop
  | outside {world : World} : scene.world.Outside world →
      Next c script scene .outside { scene with world }
  | call (task : TaskId) : Next c script scene (.call task) scene
  | expiry : Next c script scene .expiry
      { scene with world := scene.world.alterCache c CredentialsCache.expire }
  | stride {task : TaskId} {stage : CacheStage} {world : World} :
      ¬ scene.world.IsWaiting task →
      CacheStage.Step c script task scene.world (scene.stage task) stage world →
      Next c script scene (.stride task) ⟨world, Function.update scene.stage task stage⟩

/-! ## The gate -/

/-- Those at a gate are those whose stage says so, and whoever has decided what to do is inside. -/
structure Gate.Admits (gate : Gate TaskId) (stage : TaskId → CacheStage) : Prop where
  distinct : gate.callers.Nodup
  present : ∀ task, task ∈ gate.callers ↔ (stage task).IsPresent
  inside : ∀ task, (stage task).IsInside → gate.holder = some task

namespace Gate.Admits

variable {gate : Gate TaskId} {stage : TaskId → CacheStage} {task : TaskId} {later : CacheStage}

/-- Whoever is at the gate and does not wait there is inside. -/
theorem holder_eq (admits : gate.Admits stage) (hpresent : (stage task).IsPresent)
    (hqueue : task ∉ gate.queue) : gate.holder = some task :=
  (mem_callers.mp ((admits.present task).mpr hpresent)).resolve_right hqueue

/-- A caller arrives. -/
theorem arrive (admits : gate.Admits stage) (haway : stage task = .away) :
    (gate.arrive task).Admits (Function.update stage task .atGate) where
  distinct := by
    refine (arrive_callers_perm gate task).nodup_iff.mpr (List.nodup_cons.mpr ⟨?_, admits.distinct⟩)
    rw [admits.present, haway]
    exact id
  present other := by
    rw [(arrive_callers_perm gate task).mem_iff, List.mem_cons, admits.present]
    by_cases heq : other = task
    · subst heq
      simp [CacheStage.IsPresent]
    · simp [heq]
  inside other hinside := by
    by_cases heq : other = task
    · subst heq
      rw [Function.update_self] at hinside
      exact hinside.elim
    · rw [Function.update_of_ne heq] at hinside
      simp [Gate.arrive, admits.inside other hinside]

/-- A caller goes away, from inside or from among those that wait. -/
theorem goAway (admits : gate.Admits stage) (habsent : ¬ later.IsPresent) :
    (gate.leave task).Admits (Function.update stage task later) where
  distinct := (leave_callers_sublist gate task).nodup admits.distinct
  present other := by
    by_cases heq : other = task
    · subst heq
      rw [Function.update_self]
      exact iff_of_false (not_mem_leave_callers admits.distinct) habsent
    · rw [Function.update_of_ne heq, ← admits.present, leave_callers, List.mem_erase_of_ne heq]
  inside other hinside := by
    by_cases heq : other = task
    · subst heq
      rw [Function.update_self] at hinside
      exact absurd (CacheStage.isPresent_of_isInside hinside) habsent
    · rw [Function.update_of_ne heq] at hinside
      exact leave_holder heq (admits.inside other hinside)

/-- A caller goes on where it is. -/
theorem stay (admits : gate.Admits stage) (hpresent : later.IsPresent ↔ (stage task).IsPresent)
    (hinside : later.IsInside → gate.holder = some task) :
    gate.Admits (Function.update stage task later) where
  distinct := admits.distinct
  present other := by
    rw [admits.present]
    by_cases heq : other = task
    · subst heq
      rw [Function.update_self, hpresent]
    · rw [Function.update_of_ne heq]
  inside other h := by
    by_cases heq : other = task
    · subst heq
      rw [Function.update_self] at h
      exact hinside h
    · rw [Function.update_of_ne heq] at h
      exact admits.inside other h

end Gate.Admits

namespace Scene

variable {c script : Nat} {scene after : Scene} {event : Event} {task : TaskId}

/-- What holds in every scene. -/
structure Sound (c : Nat) (scene : Scene) : Prop where
  known : c < scene.world.caches.length
  admits : (scene.world.cache c).gate.Admits scene.stage

/-- A caller that is at the gate and has its turn is inside. -/
theorem Sound.holder_eq (sound : scene.Sound c) (hpresent : (scene.stage task).IsPresent)
    (hadmitted : ¬ scene.world.IsWaiting task) :
    (scene.world.cache c).gate.holder = some task :=
  sound.admits.holder_eq hpresent fun hqueue => hadmitted ⟨.cache c, hqueue⟩

/-- A change of the cache keeps what holds if its gate admits those that it should. -/
theorem Sound.of_alterCache {world : World} {f : CredentialsCache → CredentialsCache}
    {stage : TaskId → CacheStage} (known : c < world.caches.length)
    (admits : (f (world.cache c)).gate.Admits stage) :
    Sound c ⟨world.alterCache c f, stage⟩ := by
  refine ⟨by simpa [World.alterCache] using known, ?_⟩
  rw [World.cache_alterCache_self known]
  exact admits

/-- A step of a caller that has its turn keeps what holds. -/
theorem Sound.step (sound : scene.Sound c) {stage : CacheStage} {world : World}
    (hadmitted : ¬ scene.world.IsWaiting task)
    (step : CacheStage.Step c script task scene.world (scene.stage task) stage world) :
    Sound c ⟨world, Function.update scene.stage task stage⟩ := by
  have hholder (h : (scene.stage task).IsPresent) := sound.holder_eq h hadmitted
  obtain ⟨known, admits⟩ := sound
  generalize hstage : scene.stage task = before at step hholder
  cases step with
  | stay => exact ⟨known, admits.stay (by rw [hstage]) fun h => admits.inside task (hstage ▸ h)⟩
  | arrive => exact .of_alterCache known (admits.arrive hstage)
  | decide hdecide =>
    refine .of_alterCache known ?_
    rw [CredentialsCache.eq_of_decide hdecide]
    exact admits.stay (by rw [hstage]; exact Iff.rfl) fun _ => hholder trivial
  | serve credentials => exact .of_alterCache known (admits.goAway id)
  | ask forced =>
    refine ⟨by rwa [World.caches_askProvider], ?_⟩
    rw [World.cache_askProvider]
    exact admits.stay (by rw [hstage]; exact Iff.rfl) fun _ => hholder trivial
  | answer forced answer =>
    refine ⟨known, admits.stay (by rw [hstage]; exact Iff.rfl) fun _ => hholder trivial⟩
  | settle forced result =>
    refine .of_alterCache known ?_
    rw [CredentialsCache.leave, CredentialsCache.settle_gate]
    exact admits.goAway id

/-- Whatever comes next keeps what holds. -/
theorem Sound.next (sound : scene.Sound c) (next : scene.Next c script event after) :
    after.Sound c := by
  cases next with
  | outside outside =>
    refine ⟨outside.caches ▸ sound.known, ?_⟩
    rw [outside.cache_eq]
    exact sound.admits
  | call => exact sound
  | expiry => exact .of_alterCache sound.known sound.admits
  | stride hadmitted step => exact sound.step hadmitted step

end Scene

/-- When nobody has come yet, everything holds. -/
theorem Scene.sound_of_untouched {c : Nat} {world : World} (untouched : world.Untouched)
    (known : c < world.caches.length) : Scene.Sound c ⟨world, fun _ => .away⟩ := by
  have hcache : world.cache c = {} := untouched.cache_eq c
  refine ⟨known, ?_⟩
  rw [hcache]
  exact ⟨List.nodup_nil, fun _ => iff_of_false List.not_mem_nil id, fun _ h => h.elim⟩

/-- At the beginning, the scene is sound. -/
theorem Interleaving.sound_start {cached : CachedProvider} (run : Interleaving cached) :
    Scene.Sound cached.cache ⟨(run.moment 0).world, fun _ => .away⟩ :=
  Scene.sound_of_untouched run.untouched run.known

/-! ## Callers over time -/

/-- These are stages of the callers at every moment, as far as the gate of the cache goes. -/
structure Interleaving.Tracks {cached : CachedProvider} (run : Interleaving cached)
    (stage : Nat → TaskId → CacheStage) : Prop where
  sound : ∀ n, Scene.Sound cached.cache ⟨(run.moment n).world, stage n⟩
  /-- A caller that has left does nothing any more. -/
  stays : ∀ n task result, stage n task = .gone result → stage (n + 1) task = .gone result
  /-- Whoever is inside the gate stays there or leaves. -/
  leaves : ∀ n task, run.Holds n task →
    run.Holds (n + 1) task ∨ ∃ result, stage (n + 1) task = .gone result

namespace Interleaving.Tracks

variable {cached : CachedProvider} {run : Interleaving cached} {stage : Nat → TaskId → CacheStage}
  {k m n : Nat} {task : TaskId} {result : Retrieved}

/-- Whoever has decided what to do is inside the gate. -/
theorem holds (tracks : run.Tracks stage) (hinside : (stage n task).IsInside) : run.Holds n task :=
  (tracks.sound n).admits.inside task hinside

/-- Whoever is inside the gate is at a stage there. -/
theorem isPresent (tracks : run.Tracks stage) (hholds : run.Holds n task) :
    (stage n task).IsPresent :=
  ((tracks.sound n).admits.present task).mp (Gate.mem_callers.mpr (.inl hholds))

/-- Whoever has gone does not hold the gate. -/
theorem not_holds (tracks : run.Tracks stage) (hgone : stage n task = .gone result) :
    ¬ run.Holds n task := by
  intro hholds
  have hpresent := tracks.isPresent hholds
  rw [hgone] at hpresent
  exact hpresent

/-- A caller that has left does not come back. -/
theorem gone_of_le (tracks : run.Tracks stage) (hgone : stage n task = .gone result)
    (hnm : n ≤ m) : stage m task = .gone result := by
  induction m, hnm using Nat.le_induction with
  | base => exact hgone
  | succ m _ ih => exact tracks.stays m task result ih

/-- A caller that was inside the gate is there still, or has left. -/
theorem holds_or_gone (tracks : run.Tracks stage) (hholds : run.Holds m task) (hmn : m ≤ n) :
    run.Holds n task ∨ ∃ result, stage n task = .gone result := by
  induction n, hmn using Nat.le_induction with
  | base => exact .inl hholds
  | succ n _ ih =>
    rcases ih with hstill | ⟨result, hgone⟩
    · exact tracks.leaves n task hstill
    · exact .inr ⟨result, tracks.stays n task result hgone⟩

/-- Between two moments at which a caller is inside the gate, it is there all the time. -/
theorem holds_between (tracks : run.Tracks stage) (hholds : run.Holds m task) (hmk : m ≤ k)
    (hkn : k ≤ n) (hlater : run.Holds n task) : run.Holds k task := by
  rcases tracks.holds_or_gone hholds hmk with hstill | ⟨result, hgone⟩
  · exact hstill
  · exact absurd hlater (tracks.not_holds (tracks.gone_of_le hgone hkn))

end Interleaving.Tracks

/-! ## The memory of the cache -/

/-- Whoever is inside the gate stays there when somebody else leaves. -/
theorem CredentialsCache.leave_holder_cases {cache : CredentialsCache} {holder me : TaskId}
    (hholder : cache.gate.holder = some holder) :
    (cache.leave me).gate.holder = some holder ∨ holder = me := by
  by_cases heq : holder = me
  · exact .inr heq
  · exact .inl (Gate.leave_holder heq hholder)

/-- A caller that finds the credentials expired by hand retrieves others, and takes note of that. -/
theorem CredentialsCache.decision_eq_of_forced {cache after : CredentialsCache}
    {expired : Except Overflow Bool} {decision : Decision} (hforced : cache.forced = true)
    (h : cache.decide expired = .ok (after, decision)) : decision = .retrieve true := by
  unfold decide at h
  cases hcached : cache.cached <;> simp [hcached, hforced] at h <;> exact h.2.symm

namespace CacheStage.Step

variable {c script : Nat} {me : TaskId} {world after : World} {stage later : CacheStage}

/-- A step leaves the cached credentials alone, and an expiry by hand stays in force or noted by the
caller; only a caller that leaves with new credentials caches them. -/
theorem memory_cases (step : Step c script me world stage later after)
    (known : c < world.caches.length) :
    ((after.cache c).cached = (world.cache c).cached ∧
        ((world.cache c).forced = true ∨ stage.Owes → (after.cache c).forced = true ∨ later.Owes)) ∨
      ∃ forced credentials, stage = .answered forced (.ok credentials) ∧
        later = .gone (.ok credentials) ∧ (after.cache c).cached = some credentials ∧
          (after.cache c).forced = (world.cache c).forced := by
  cases step with
  | stay => exact .inl ⟨rfl, id⟩
  | arrive =>
    rw [World.cache_alterCache_self known]
    exact .inl ⟨rfl, id⟩
  | decide hdecide =>
    rw [World.cache_alterCache_self known]
    refine .inl ⟨by rw [CredentialsCache.eq_of_decide hdecide], fun howed => .inr ?_⟩
    rw [CredentialsCache.decision_eq_of_forced (howed.resolve_right id) hdecide]
    rfl
  | serve credentials =>
    rw [World.cache_alterCache_self known]
    exact .inl ⟨rfl, fun howed => .inl (howed.resolve_right id)⟩
  | ask forced =>
    rw [World.cache_askProvider]
    exact .inl ⟨rfl, id⟩
  | answer forced answer => exact .inl ⟨rfl, id⟩
  | settle forced result =>
    rw [World.cache_alterCache_self known]
    cases result with
    | ok credentials => exact .inr ⟨forced, credentials, rfl, rfl, rfl, rfl⟩
    | error error =>
      cases forced with
      | true => exact .inl ⟨rfl, fun _ => .inl rfl⟩
      | false =>
        exact .inl ⟨rfl, fun howed => .inl (howed.resolve_right Bool.false_ne_true)⟩

/-- A caller that has decided what to do leaves an expiry by hand in force. -/
theorem forced_of_inside (step : Step c script me world stage later after)
    (known : c < world.caches.length) (hinside : stage.IsInside)
    (hforced : (world.cache c).forced = true) : (after.cache c).forced = true := by
  cases step with
  | stay => exact hforced
  | arrive => exact hinside.elim
  | decide => exact hinside.elim
  | serve credentials =>
    rw [World.cache_alterCache_self known]
    exact hforced
  | ask forced =>
    rw [World.cache_askProvider]
    exact hforced
  | answer forced answer => exact hforced
  | settle forced result =>
    rw [World.cache_alterCache_self known]
    cases result with
    | ok credentials => exact hforced
    | error error => cases forced <;> first | rfl | exact hforced

/-- Whoever is inside the gate stays there, unless it is the caller and leaves. -/
theorem holder_cases {holder : TaskId} (step : Step c script me world stage later after)
    (known : c < world.caches.length) (hholder : (world.cache c).gate.holder = some holder) :
    (after.cache c).gate.holder = some holder ∨ holder = me ∧ ∃ result, later = .gone result := by
  have hleave (cache : CredentialsCache) (result : Retrieved)
      (hcache : cache.gate = (world.cache c).gate) :
      (cache.leave me).gate.holder = some holder ∨
        holder = me ∧ ∃ other, CacheStage.gone result = .gone other :=
    (CredentialsCache.leave_holder_cases (hcache ▸ hholder)).imp_right fun h => ⟨h, result, rfl⟩
  cases step with
  | stay => exact .inl hholder
  | arrive =>
    rw [World.cache_alterCache_self known]
    left
    simp [CredentialsCache.arrive, Gate.arrive, hholder]
  | decide hdecide =>
    rw [World.cache_alterCache_self known, CredentialsCache.eq_of_decide hdecide]
    exact .inl hholder
  | serve credentials =>
    rw [World.cache_alterCache_self known]
    exact hleave _ _ rfl
  | ask forced =>
    rw [World.cache_askProvider]
    exact .inl hholder
  | answer forced answer => exact .inl hholder
  | settle forced result =>
    rw [World.cache_alterCache_self known]
    exact hleave _ _ (CredentialsCache.settle_gate _ _)

/-- A caller arrives at the gate, goes away from it, or leaves it as it is. -/
theorem gate_cases (step : Step c script me world stage later after)
    (known : c < world.caches.length) :
    (after.cache c).gate = (world.cache c).gate ∨
      (after.cache c).gate = (world.cache c).gate.arrive me ∨
        (after.cache c).gate = (world.cache c).gate.leave me := by
  cases step with
  | stay => exact .inl rfl
  | arrive =>
    rw [World.cache_alterCache_self known]
    exact .inr (.inl rfl)
  | decide hdecide =>
    rw [World.cache_alterCache_self known, CredentialsCache.eq_of_decide hdecide]
    exact .inl rfl
  | serve credentials =>
    rw [World.cache_alterCache_self known]
    exact .inr (.inr rfl)
  | ask forced =>
    rw [World.cache_askProvider]
    exact .inl rfl
  | answer forced answer => exact .inl rfl
  | settle forced result =>
    rw [World.cache_alterCache_self known, CredentialsCache.leave, CredentialsCache.settle_gate]
    exact .inr (.inr rfl)

/-- A caller that is not at the gate can at most arrive there. -/
theorem memory_of_absent (step : Step c script me world stage later after)
    (known : c < world.caches.length) (habsent : ¬ stage.IsPresent) :
    (after.cache c).cached = (world.cache c).cached ∧
      (after.cache c).forced = (world.cache c).forced := by
  cases step with
  | stay => exact ⟨rfl, rfl⟩
  | arrive =>
    rw [World.cache_alterCache_self known]
    exact ⟨rfl, rfl⟩
  | _ => exact absurd trivial habsent

/-- The provider is asked by callers that await its answer from then on. -/
theorem providers_cases (step : Step c script me world stage later after) :
    after.providers = world.providers ∨
      later.IsAsked ∧ after = (world.askProvider script).1 := by
  cases step with
  | ask forced => exact .inr ⟨trivial, rfl⟩
  | _ => exact .inl rfl

/-- An answer that is new to a caller is what the provider gives next. -/
theorem answer_cases {answer : Retrieved} (step : Step c script me world stage later after)
    (hanswer : later.answer? = some answer) :
    stage.answer? = some answer ∨ later.IsAsked ∧ after = (world.askProvider script).1 ∧
      world.nextAnswer script = answer := by
  cases step with
  | stay => exact .inl hanswer
  | ask forced => exact .inr ⟨trivial, rfl, Option.some.inj hanswer⟩
  | answer forced answer => exact .inl hanswer
  | _ => cases hanswer

/-- Credentials with which a caller is new to leave are cached and in force, or the answer of the
provider. -/
theorem yield_cases {credentials : Credentials} (step : Step c script me world stage later after)
    (hyield : later.yield? = some credentials) :
    stage.yield? = some credentials ∨ stage.answer? = some (.ok credentials) ∨
      stage = .atGate ∧ (world.cache c).cached = some credentials ∧
        (world.cache c).forced = false := by
  cases step with
  | stay => exact .inl hyield
  | @decide expired cache decision hdecide =>
    cases decision with
    | retrieve => cases hyield
    | serve cached =>
      obtain rfl : cached = credentials := Option.some.inj hyield
      obtain ⟨hcached, hforced, -⟩ := CredentialsCache.served_of_decide hdecide
      exact .inr (.inr ⟨rfl, hcached, hforced⟩)
  | serve cached => exact .inl hyield
  | settle forced result =>
    cases result with
    | error => cases hyield
    | ok fetched => exact .inr (.inl (congrArg (some ∘ Except.ok) (Option.some.inj hyield)))
  | _ => cases hyield

/-- A caller that has decided what to do was inside before, or has just been at the gate. -/
theorem inside_cases (step : Step c script me world stage later after) (hinside : later.IsInside) :
    stage.IsInside ∨ stage = .atGate := by
  cases step with
  | stay => exact .inl hinside
  | decide => exact .inr rfl
  | _ => first | exact .inl trivial | exact hinside.elim

/-- A caller that has left was inside, or has left before. -/
theorem gone_cases {result : Retrieved} (step : Step c script me world stage later after)
    (hgone : later = .gone result) : stage.IsInside ∨ stage = .gone result := by
  cases step with
  | stay => exact .inr hgone
  | serve => exact .inl trivial
  | settle => exact .inl trivial
  | _ => cases hgone

/-- A caller that has left does nothing any more. -/
theorem eq_gone {result : Retrieved} (step : Step c script me world (.gone result) later after) :
    later = .gone result := by
  cases step
  rfl

end CacheStage.Step

namespace Scene

variable {c script : Nat} {scene after : Scene} {event : Event} {task : TaskId}

/-- A caller stays at its stage, or does a step. -/
theorem Next.stage_cases (next : scene.Next c script event after) (task : TaskId) :
    after.stage task = scene.stage task ∨
      event = .stride task ∧ ¬ scene.world.IsWaiting task ∧
        CacheStage.Step c script task scene.world (scene.stage task) (after.stage task)
          after.world := by
  cases next with
  | @stride other stage world hadmitted step =>
    by_cases heq : task = other
    · subst heq
      exact .inr ⟨rfl, hadmitted, by simpa only [Function.update_self] using step⟩
    · exact .inl (Function.update_of_ne heq _ _)
  | _ => exact .inl rfl

/-- Apart from what happens outside, the provider is asked by a caller that awaits its answer from
then on. -/
theorem Next.providers_cases (next : scene.Next c script event after) :
    after.world.providers = scene.world.providers ∨ event = .outside ∨ ∃ task,
      event = .stride task ∧ (after.stage task).IsAsked ∧
        after.world = (scene.world.askProvider script).1 := by
  cases next with
  | outside => exact .inr (.inl rfl)
  | call => exact .inl rfl
  | expiry => exact .inl rfl
  | @stride task stage world hadmitted step =>
    rcases step.providers_cases with hsame | ⟨hasked, hworld⟩
    · exact .inl hsame
    · exact .inr (.inr ⟨task, rfl, by simpa only [Function.update_self] using hasked, hworld⟩)

/-- After an expiry, the cache is expired. -/
theorem Sound.cache_of_expiry (sound : scene.Sound c) (next : scene.Next c script .expiry after) :
    after.world.cache c = (scene.world.cache c).expire := by
  cases next
  exact World.cache_alterCache_self sound.known _

/-- An expiry by hand stays in force while a caller that has decided what to do is inside. -/
theorem Sound.forced_next (sound : scene.Sound c) (next : scene.Next c script event after)
    (hinside : (scene.stage task).IsInside) (hforced : (scene.world.cache c).forced = true) :
    (after.world.cache c).forced = true := by
  cases next with
  | outside outside => rwa [outside.cache_eq]
  | call => exact hforced
  | expiry =>
    rw [World.cache_alterCache_self sound.known]
    rfl
  | @stride other stage world hadmitted step =>
    have hholder := sound.admits.inside task hinside
    by_cases heq : other = task
    · subst heq
      exact step.forced_of_inside sound.known hinside hforced
    · have habsent : ¬ (scene.stage other).IsPresent := fun hpresent =>
        heq (Option.some.inj ((sound.holder_eq hpresent hadmitted).symm.trans hholder))
      rw [(step.memory_of_absent sound.known habsent).2, hforced]

/-- An expiry by hand is in force, or a caller has taken note of it. -/
def Pending (c : Nat) (scene : Scene) : Prop :=
  (scene.world.cache c).forced = true ∨ ∃ task, (scene.stage task).Owes

/-- What is cached stays, and so does an expiry by hand, until a caller caches its answer. -/
theorem Sound.pending_next (sound : scene.Sound c) (next : scene.Next c script event after) :
    ((after.world.cache c).cached = (scene.world.cache c).cached ∧
        (scene.Pending c → after.Pending c)) ∨
      ∃ task credentials, (scene.stage task).answer? = some (.ok credentials) ∧
        (after.world.cache c).cached = some credentials ∧
          (after.world.cache c).forced = (scene.world.cache c).forced := by
  cases next with
  | outside outside =>
    refine .inl ⟨by rw [outside.cache_eq], fun hpending => ?_⟩
    rw [Pending, outside.cache_eq]
    exact hpending
  | call => exact .inl ⟨rfl, id⟩
  | expiry =>
    simp only [Pending, World.cache_alterCache_self sound.known]
    exact .inl ⟨rfl, fun _ => .inl rfl⟩
  | @stride other stage world hadmitted step =>
    rcases step.memory_cases sound.known with ⟨hcached, howed⟩ | ⟨forced, credentials, hstage, -,
      hcached, hforced⟩
    · refine .inl ⟨hcached, ?_⟩
      have hafter (h : (world.cache c).forced = true ∨ stage.Owes) :
          Pending c ⟨world, Function.update scene.stage other stage⟩ :=
        h.imp id fun h => ⟨other, by simpa only [Function.update_self] using h⟩
      rintro (hforced | ⟨task, howes⟩)
      · exact hafter (howed (.inl hforced))
      · by_cases heq : task = other
        · subst heq
          exact hafter (howed (.inr howes))
        · exact .inr ⟨task, by simpa only [Function.update_of_ne heq] using howes⟩
    · exact .inr ⟨other, credentials, by rw [hstage]; rfl, hcached, hforced⟩

/-- While a caller is inside the gate, what is cached stays, and an expiry by hand stays in force or
noted by the caller. If it leaves with an error, that is so too, and the expiry is in force. -/
theorem Sound.holder_next (sound : scene.Sound c) (next : scene.Next c script event after)
    (hholder : (scene.world.cache c).gate.holder = some task) :
    ((after.world.cache c).gate.holder = some task ∧
        (after.world.cache c).cached = (scene.world.cache c).cached ∧
          ((scene.world.cache c).forced = true ∨ (scene.stage task).Owes →
            (after.world.cache c).forced = true ∨ (after.stage task).Owes)) ∨
      ∃ result, after.stage task = .gone result ∧ ∀ error, result = .error error →
        (after.world.cache c).cached = (scene.world.cache c).cached ∧
          ((scene.world.cache c).forced = true ∨ (scene.stage task).Owes →
            (after.world.cache c).forced = true) := by
  cases next with
  | outside outside =>
    rw [outside.cache_eq]
    exact .inl ⟨hholder, rfl, id⟩
  | call => exact .inl ⟨hholder, rfl, id⟩
  | expiry =>
    rw [World.cache_alterCache_self sound.known]
    exact .inl ⟨hholder, rfl, fun _ => .inl rfl⟩
  | @stride other stage world hadmitted step =>
    by_cases heq : other = task
    · subst heq
      simp only [Function.update_self]
      rcases step.memory_cases sound.known with ⟨hcached, howed⟩ | ⟨_, credentials, -, hgone, -⟩
      · rcases step.holder_cases sound.known hholder with hstays | ⟨-, result, rfl⟩
        · exact .inl ⟨hstays, hcached, howed⟩
        · exact .inr ⟨result, rfl, fun _ _ => ⟨hcached, fun h => (howed h).resolve_right id⟩⟩
      · refine .inr ⟨.ok credentials, hgone, fun error herror => ?_⟩
        cases herror
    · have habsent : ¬ (scene.stage other).IsPresent := fun hpresent =>
        heq (Option.some.inj ((sound.holder_eq hpresent hadmitted).symm.trans hholder))
      obtain ⟨hcached, hforced⟩ := step.memory_of_absent sound.known habsent
      have hstays := (step.holder_cases sound.known hholder).resolve_right fun h => heq h.1.symm
      simp only [Function.update_of_ne (Ne.symm heq)]
      exact .inl ⟨hstays, hcached, fun h => by rwa [hforced]⟩

end Scene

end CloudSession
