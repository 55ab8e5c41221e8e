import CloudSession.Proofs.Interleaving.Callers

/-!
# One caller inside the gate

The provider behind a cache may do what it likes elsewhere, but it leaves the cache alone. Then the
callers of the cache are at stages at every moment, those at the gate are just those whose stage says
so, and what is cached changes only when the caller inside settles.
-/

namespace CloudSession

/-- The provider behind a cache is made of caches and notes among which that cache is not. -/
structure CachedProvider.IsApart (cached : CachedProvider) (area : Territory) : Prop where
  within : cached.inner.IsWithin area
  apart : ¬ area.caches cached.cache

namespace Interleaving

variable {cached : CachedProvider} {run : Interleaving cached} {area : Territory}
  {stage : Nat → TaskId → CacheStage} {task other : TaskId} {d m n : Nat} {α : Type}

/-- Where an activity leads, it stays in the territory in which it has been. -/
theorem Reaches.stays {activity rest : Activity α} (h : run.Reaches task m activity n rest)
    (stays : activity.Stays area) : rest.Stays area := by
  induction h with
  | begin => exact stays
  | other _ _ ih => exact ih
  | stride _ _ hnext ih => exact ((ih _).stride hnext).2

/-- The stages of the callers at every moment. -/
structure Stages (run : Interleaving cached) (stage : Nat → TaskId → CacheStage) : Prop where
  start : ∀ task, stage 0 task = .away
  isStage : ∀ n task, run.IsStage n task (stage n task)
  stays : ∀ n task, run.event n ≠ .stride task → stage (n + 1) task = stage n task
  moves : ∀ n task, run.event n = .stride task →
    run.Moves n task (stage n task) (stage (n + 1) task)

/-- The callers in every interleaving are at stages. -/
theorem exists_stages (run : Interleaving cached) : ∃ stage, run.Stages stage := by
  let GoesOn (task : TaskId) (n : Nat) (now later : CacheStage) : Prop :=
    (run.event n ≠ .stride task → later = now) ∧
      (run.event n = .stride task → run.Moves n task now later)
  have hnext (task : TaskId) (n : Nat) (now : CacheStage) (isStage : run.IsStage n task now) :
      ∃ later, GoesOn task n now later ∧ run.IsStage (n + 1) task later := by
    by_cases hevent : run.event n = .stride task
    · obtain ⟨later, hmoves, hlater⟩ := isStage.moves hevent
      exact ⟨later, ⟨fun hnot => absurd hevent hnot, fun _ => hmoves⟩, hlater⟩
    · exact ⟨now, ⟨fun _ => rfl, fun h => absurd h hevent⟩, isStage.of_other hevent⟩
  have haway (task : TaskId) : run.IsStage 0 task .away := .away (run.nobody task)
  choose track hstart hstage hnext using fun task => exists_sequence (haway task) (hnext task)
  exact ⟨fun n task => track task n, hstart, fun n task => hstage task n,
    fun n task => (hnext task n).1, fun n task => (hnext task n).2⟩

/-- What happens without a stride is an expiry by hand, or leaves the managers and caches alone. -/
theorem world_cases (run : Interleaving cached) (n : Nat) :
    (∃ task, run.event n = .stride task) ∨
      (∀ task, run.event n ≠ .stride task) ∧
        ((run.moment n).world.Outside (run.moment (n + 1)).world ∨
          (run.moment (n + 1)).world = cached.expire (run.moment n).world) := by
  have hnext := run.next n
  generalize run.event n = event at hnext
  generalize run.moment (n + 1) = after at hnext
  cases hnext with
  | outside outside => exact .inr ⟨nofun, .inl outside⟩
  | call => exact .inr ⟨nofun, .inl ⟨rfl, rfl, rfl, rfl⟩⟩
  | expiry => exact .inr ⟨nofun, .inr rfl⟩
  | stride => exact .inl ⟨_, rfl⟩

namespace Stages

/-- A caller that moves is the only one whose stage changes. -/
theorem succ_eq (stages : run.Stages stage) (hevent : run.event n = .stride task) :
    stage (n + 1) = Function.update (stage n) task (stage (n + 1) task) := by
  funext other
  by_cases heq : other = task
  · rw [heq, Function.update_self]
  · rw [Function.update_of_ne heq]
    refine stages.stays n other fun hother => ?_
    exact heq (Event.stride.inj (hother.symm.trans hevent))

/-- A stage does not change but in a stride of a caller. -/
theorem eq_of_others (stages : run.Stages stage) (hevent : ∀ task, run.event n ≠ .stride task) :
    stage (n + 1) = stage n :=
  funext fun task => stages.stays n task (hevent task)

/-- What a caller does while it retrieves stays in the territory. -/
theorem staysIn_of_retrieve (hapart : cached.IsApart area) {rest next : Activity Retrieved}
    (hrest : run.Reaches task (d + 1) cached.inner.retrieve n rest)
    (hstride : rest.stride task (run.moment n).world = (.waiting next, (run.moment (n + 1)).world)) :
    (run.moment n).world.StaysIn area (run.moment (n + 1)).world :=
  ((hrest.stays (cached.inner.stays_retrieve hapart.within) _).stride hstride).1

variable (hapart : cached.IsApart area)
include hapart

/-- A move of a caller keeps what holds in every scene. -/
theorem sound_of_moves {before : TaskId → CacheStage} {later : CacheStage}
    (sound : Scene.Sound cached.cache ⟨(run.moment n).world, before⟩)
    (hevent : run.event n = .stride task) (moves : run.Moves n task (before task) later) :
    Scene.Sound cached.cache ⟨(run.moment (n + 1)).world, Function.update before task later⟩ := by
  obtain ⟨rest, -, hadmitted, -⟩ := run.exists_rest hevent
  have hholder (h : (before task).IsPresent) := sound.holder_eq h hadmitted
  obtain ⟨known, admits⟩ := sound
  generalize hstage : before task = now at moves hholder
  cases moves with
  | arrive hworld =>
    rw [hworld]
    exact .of_alterCache known (admits.arrive hstage)
  | pause hworld =>
    rw [hworld, ← hstage, Function.update_eq_self]
    exact ⟨known, admits⟩
  | decide _ hdecide hworld =>
    rw [hworld]
    refine .of_alterCache known ?_
    rw [CredentialsCache.eq_of_decide hdecide]
    refine admits.stay ?_ fun _ => hholder trivial
    simp only [hstage]
    exact Iff.rfl
  | serve hworld =>
    rw [hworld]
    exact .of_alterCache known (admits.goAway id)
  | retrieve _ hrest hstride =>
    have stays := staysIn_of_retrieve hapart hrest hstride
    refine ⟨by rw [stays.cacheCount]; exact known, ?_⟩
    rw [stays.cache _ hapart.apart, ← hstage, Function.update_eq_self]
    exact admits
  | settle _ _ hworld =>
    rw [hworld]
    refine .of_alterCache known ?_
    rw [CredentialsCache.leave, CredentialsCache.settle_gate]
    exact admits.goAway id

/-- At every moment, the scene is sound. -/
theorem sound (stages : run.Stages stage) (n : Nat) :
    Scene.Sound cached.cache ⟨(run.moment n).world, stage n⟩ := by
  induction n with
  | zero =>
    have hstage : stage 0 = fun _ => .away := funext stages.start
    rw [hstage]
    exact run.sound_start
  | succ n ih =>
    rcases run.world_cases n with ⟨task, hevent⟩ | ⟨hothers, houtside | hexpiry⟩
    · rw [stages.succ_eq hevent]
      exact sound_of_moves hapart ih hevent (stages.moves n task hevent)
    · rw [stages.eq_of_others hothers]
      refine ⟨houtside.caches ▸ ih.known, ?_⟩
      rw [houtside.cache_eq]
      exact ih.admits
    · rw [stages.eq_of_others hothers, hexpiry]
      exact .of_alterCache ih.known ih.admits

/-- Whoever is inside the gate stays there or leaves. -/
theorem holder_cases (stages : run.Stages stage) (hholds : run.Holds n task) :
    run.Holds (n + 1) task ∨ ∃ result, stage (n + 1) task = .gone result := by
  have known := (stages.sound hapart n).known
  have hleave (me : TaskId) (cache : CredentialsCache) (result : Retrieved)
      (hgate : cache.gate = (run.cache n).gate) (hgone : stage (n + 1) me = .gone result) :
      (cache.leave me).gate.holder = some task ∨ ∃ result, stage (n + 1) task = .gone result := by
    have hholder : cache.gate.holder = some task := by rw [hgate, hholds]
    rcases CredentialsCache.leave_holder_cases hholder with hstays | heq
    · exact .inl hstays
    · exact .inr ⟨result, heq ▸ hgone⟩
  rcases run.world_cases n with ⟨me, hevent⟩ | ⟨-, houtside | hexpiry⟩
  · have moves := stages.moves n me hevent
    generalize hlater : stage (n + 1) me = later at moves
    generalize stage n me = before at moves
    rw [Holds, Interleaving.cache] at hholds ⊢
    cases moves with
    | arrive hworld =>
      rw [hworld, World.cache_alterCache_self known]
      left
      simp [CredentialsCache.arrive, Gate.arrive, hholds]
    | pause hworld =>
      rw [hworld]
      exact .inl hholds
    | decide _ hdecide hworld =>
      rw [hworld, World.cache_alterCache_self known, CredentialsCache.eq_of_decide hdecide]
      exact .inl hholds
    | serve hworld =>
      rw [hworld, World.cache_alterCache_self known]
      exact hleave me _ _ rfl hlater
    | retrieve _ hrest hstride =>
      rw [(staysIn_of_retrieve hapart hrest hstride).cache _ hapart.apart]
      exact .inl hholds
    | settle _ _ hworld =>
      rw [hworld, World.cache_alterCache_self known]
      exact hleave me _ _ (CredentialsCache.settle_gate _ _) hlater
  · rw [Holds, Interleaving.cache, houtside.cache_eq]
    exact .inl hholds
  · rw [Holds, Interleaving.cache, hexpiry, CachedProvider.expire,
      World.cache_alterCache_self known]
    exact .inl hholds

/-- The stages fit the gate. -/
theorem tracks (stages : run.Stages stage) : run.Tracks stage where
  sound := stages.sound hapart
  stays n task result hgone := by
    by_cases hevent : run.event n = .stride task
    · have moves := stages.moves n task hevent
      rw [hgone] at moves
      generalize stage (n + 1) task = later at moves
      cases moves with
      | pause => rfl
    · rw [stages.stays n task hevent, hgone]
  leaves _ _ hholds := stages.holder_cases hapart hholds

/-- A caller that decides what to do is inside the gate. -/
theorem holds_of_moves_decide (stages : run.Stages stage) (hevent : run.event n = .stride task)
    (hatGate : stage n task = .atGate) : run.Holds n task := by
  obtain ⟨rest, -, hadmitted, -⟩ := run.exists_rest hevent
  refine (stages.sound hapart n).holder_eq ?_ hadmitted
  simp only [hatGate]
  trivial

/-- What is cached changes only when a caller settles with new credentials. -/
theorem cached_cases (stages : run.Stages stage) (n : Nat) :
    (run.cache (n + 1)).cached = (run.cache n).cached ∨
      ∃ task d forced credentials, run.Decides task d (.retrieve forced) ∧
        run.Yields task (d + 1) cached.inner.retrieve n (.ok credentials) ∧
          (run.cache (n + 1)).cached = some credentials := by
  have known := (stages.sound hapart n).known
  rcases run.world_cases n with ⟨me, hevent⟩ | ⟨-, houtside | hexpiry⟩
  · have moves := stages.moves n me hevent
    generalize stage (n + 1) me = later at moves
    generalize stage n me = before at moves
    rw [Interleaving.cache]
    cases moves with
    | arrive hworld =>
      rw [hworld, World.cache_alterCache_self known]
      exact .inl rfl
    | pause hworld =>
      rw [hworld]
      exact .inl rfl
    | decide _ hdecide hworld =>
      rw [hworld, World.cache_alterCache_self known, CredentialsCache.eq_of_decide hdecide]
      exact .inl rfl
    | serve hworld =>
      rw [hworld, World.cache_alterCache_self known]
      exact .inl rfl
    | retrieve _ hrest hstride =>
      rw [(staysIn_of_retrieve hapart hrest hstride).cache _ hapart.apart]
      exact .inl rfl
    | @settle d forced result hdecides hyields hworld =>
      rw [hworld, World.cache_alterCache_self known]
      cases result with
      | error error =>
        refine .inl ?_
        cases forced <;> rfl
      | ok credentials => exact .inr ⟨me, d, forced, credentials, hdecides, hyields, rfl⟩
  · rw [Interleaving.cache, houtside.cache_eq]
    exact .inl rfl
  · rw [Interleaving.cache, hexpiry, CachedProvider.expire, World.cache_alterCache_self known]
    exact .inl rfl

end Stages

end Interleaving

end CloudSession
