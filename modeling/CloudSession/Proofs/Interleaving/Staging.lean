import CloudSession.Proofs.Interleaving.Scene

/-!
# The stages of an interleaving

Each caller in an interleaving is at a stage at every moment, and with each stride it does a step:
what a caller does is what the stages say, whatever others do between its strides. This gives the
scenes of the interleaving, and with them what is true of the stages of a caller over time.
-/

namespace CloudSession

variable {c script : Nat}

/-- The callers that have come are at these stages. -/
structure Snapshot.IsStaged (c script : Nat) (now : Snapshot) (stage : TaskId → CacheStage) :
    Prop where
  away : ∀ task, now.callers task = none → stage task = .away
  isAt : ∀ task turn, now.callers task = some turn → turn.IsAt c script task (stage task)

/-- Whoever awaits an answer sleeps, and nobody else does. -/
theorem Snapshot.IsStaged.asleep_iff {now : Snapshot} {stage : TaskId → CacheStage}
    {task : TaskId} (staged : now.IsStaged c script stage) :
    (∃ turn, now.callers task = some turn ∧ turn.IsAsleep) ↔ (stage task).IsAsked := by
  constructor
  · rintro ⟨turn, hturn, hasleep⟩
    exact (staged.isAt task turn hturn).isAsleep_iff.mp hasleep
  · intro hasked
    cases hcaller : now.callers task with
    | none =>
      rw [staged.away task hcaller] at hasked
      exact hasked.elim
    | some turn =>
      exact ⟨turn, rfl, (staged.isAt task turn hcaller).isAsleep_iff.mpr hasked⟩

/-- Whatever comes next, the callers are at stages again. -/
theorem Snapshot.Next.exists_stage {now after : Snapshot} {event : Event}
    {stage : TaskId → CacheStage} (next : now.Next ⟨c, .scripted script⟩ event after)
    (staged : now.IsStaged c script stage) :
    ∃ later, Scene.Next c script ⟨now.world, stage⟩ event ⟨after.world, later⟩ ∧
      after.IsStaged c script later := by
  cases next with
  | outside outside => exact ⟨stage, .outside outside, staged.away, staged.isAt⟩
  | @call caller hnew =>
    refine ⟨stage, .call caller, fun task hnone => ?_, fun task turn hturn => ?_⟩
    · by_cases heq : task = caller
      · subst heq
        exact staged.away task hnew
      · exact staged.away task (by simpa [Snapshot.call, heq] using hnone)
    · by_cases heq : task = caller
      · subst heq
        obtain rfl : .waiting (CachedProvider.get ⟨c, .scripted script⟩) = turn := by
          simpa [Snapshot.call] using hturn
        rw [staged.away task hnew]
        exact fun world => Activity.enacts_getCached
      · exact staged.isAt task turn (by simpa [Snapshot.call, heq] using hturn)
  | expiry => exact ⟨stage, .expiry, staged.away, staged.isAt⟩
  | @stride caller rest hrest hadmitted =>
    obtain ⟨later, step, hlater⟩ := Activity.enacts_stride (staged.isAt caller _ hrest now.world)
    refine ⟨Function.update stage caller later, .stride hadmitted step, fun task hnone => ?_,
      fun task turn hturn => ?_⟩
    · by_cases heq : task = caller
      · subst heq
        simp [Snapshot.stride] at hnone
      · rw [Function.update_of_ne heq]
        exact staged.away task (by simpa [Snapshot.stride, heq] using hnone)
    · by_cases heq : task = caller
      · subst heq
        obtain rfl : (rest.stride task now.world).1 = turn := by
          simpa [Snapshot.stride] using hturn
        rwa [Function.update_self]
      · rw [Function.update_of_ne heq]
        exact staged.isAt task turn (by simpa [Snapshot.stride, heq] using hturn)

namespace Interleaving

variable {run : Interleaving ⟨c, .scripted script⟩} {stage : Nat → TaskId → CacheStage}
  {k l m n : Nat} {task : TaskId} {result : Retrieved}

/-- The stages of the callers at every moment. -/
structure Staging (run : Interleaving ⟨c, .scripted script⟩)
    (stage : Nat → TaskId → CacheStage) : Prop where
  start : ∀ task, stage 0 task = .away
  staged : ∀ n, (run.moment n).IsStaged c script (stage n)
  next : ∀ n, Scene.Next c script ⟨(run.moment n).world, stage n⟩ (run.event n)
    ⟨(run.moment (n + 1)).world, stage (n + 1)⟩

/-- The callers in every interleaving are at stages. -/
theorem exists_staging (run : Interleaving ⟨c, .scripted script⟩) :
    ∃ stage, run.Staging stage := by
  have hstart : (run.moment 0).IsStaged c script fun _ => .away := by
    refine ⟨fun _ _ => rfl, fun task turn hturn => ?_⟩
    rw [run.nobody] at hturn
    cases hturn
  obtain ⟨stage, hzero, hstaged, hnext⟩ := run.exists_track hstart
    fun now event after stage next staged => next.exists_stage staged
  exact ⟨stage, fun task => congrFun hzero task, hstaged, hnext⟩

namespace Staging

/-- At every moment, the scene is sound. -/
theorem sound (staging : run.Staging stage) (n : Nat) :
    Scene.Sound c ⟨(run.moment n).world, stage n⟩ := by
  induction n with
  | zero =>
    have hstage : stage 0 = fun _ => .away := funext staging.start
    rw [hstage]
    exact run.sound_start
  | succ n ih => exact ih.next (staging.next n)

/-- A caller stays at its stage, or does a step. -/
theorem stage_cases (staging : run.Staging stage) (n : Nat) (task : TaskId) :
    stage (n + 1) task = stage n task ∨
      run.event n = .stride task ∧ ¬ (run.moment n).world.IsWaiting task ∧
        CacheStage.Step c script task (run.moment n).world (stage n task) (stage (n + 1) task)
          (run.moment (n + 1)).world :=
  (staging.next n).stage_cases task

/-- The stages fit the gate. -/
theorem tracks (staging : run.Staging stage) : run.Tracks stage where
  sound := staging.sound
  stays n task result hgone := by
    rcases staging.stage_cases n task with heq | ⟨-, -, step⟩
    · rw [heq, hgone]
    · rw [hgone] at step
      exact step.eq_gone
  leaves n task hholds := by
    rcases (staging.sound n).holder_next (staging.next n) hholds with ⟨hstays, -⟩ | ⟨result, h, -⟩
    · exact .inl hstays
    · exact .inr ⟨result, h⟩

/-- Whoever has decided what to do is inside the gate. -/
theorem holds (staging : run.Staging stage) (hinside : (stage n task).IsInside) :
    run.Holds n task :=
  staging.tracks.holds hinside

/-- A caller that has come to its end has left. -/
theorem gone (staging : run.Staging stage) (hreturned : run.Returned n task result) :
    stage n task = .gone result :=
  (staging.staged n).isAt task _ hreturned

/-- A caller that has left does not come back. -/
theorem gone_of_le (staging : run.Staging stage) (hgone : stage n task = .gone result)
    (hnm : n ≤ m) : stage m task = .gone result :=
  staging.tracks.gone_of_le hgone hnm

/-- Whoever has gone does not hold the gate. -/
theorem not_holds (staging : run.Staging stage) (hgone : stage n task = .gone result) :
    ¬ run.Holds n task :=
  staging.tracks.not_holds hgone

/-- Whoever awaits an answer sleeps, and nobody else does. -/
theorem inFlight_iff (staging : run.Staging stage) :
    run.InFlight n task ↔ (stage n task).IsAsked :=
  (staging.staged n).asleep_iff

/-- A caller that has left did so from inside the gate. -/
theorem exists_leaving (staging : run.Staging stage) (hgone : stage l task = .gone result) :
    ∃ n < l, run.Holds n task ∧ stage (n + 1) task = .gone result := by
  induction l with
  | zero =>
    rw [staging.start] at hgone
    cases hgone
  | succ l ih =>
    have hearlier (h : stage l task = .gone result) :
        ∃ n < l + 1, run.Holds n task ∧ stage (n + 1) task = .gone result := by
      obtain ⟨n, hnl, hn⟩ := ih h
      exact ⟨n, Nat.lt_succ_of_lt hnl, hn⟩
    rcases staging.stage_cases l task with heq | ⟨-, -, step⟩
    · exact hearlier (heq ▸ hgone)
    · rcases step.gone_cases hgone with hinside | hbefore
      · exact ⟨l, Nat.lt_succ_self l, staging.holds hinside, hgone⟩
      · exact hearlier hbefore

end Staging

end Interleaving

end CloudSession
