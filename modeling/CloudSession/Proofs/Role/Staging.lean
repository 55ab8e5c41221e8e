import CloudSession.Proofs.Interleaving.Run
import CloudSession.Proofs.Role.Scene

/-!
# The stages of the callers of a cached role

Each caller in an interleaving is at a stage at every moment, and with each stride it does a step or
changes nothing. Whether a caller has just assumed the role can be told from its stage, though its
stages are not part of the interleaving.
-/

namespace CloudSession

variable {cached : CachedRole}

/-- After a moment, a caller assumes the role: the assumer gives it these credentials, and what it
does next, whatever the world is by then, is to note when they expire. -/
structure Interleaving.Assumes (run : Interleaving cached.provider) (n : Nat) (task : TaskId)
    (assumed : Credentials) : Prop where
  event : run.event n = .stride task
  answer : ∃ source request, (run.moment n).world.assume cached.assumer source request =
    ((run.moment (n + 1)).world, .ok assumed)
  note : ∃ rest, (run.moment (n + 1)).callers task = some (.waiting rest) ∧
    ∀ world, (rest.stride task world).2 = world.note cached.note assumed.expiry

/-- What an assumer gives does not depend on what it is asked for. -/
theorem World.assume_answer_eq (world : World) (assumer : Nat) (source other : Credentials)
    (request last : RoleRequest) :
    (world.assume assumer source request).2 = (world.assume assumer other last).2 := rfl

/-- In some world, it is a change to note an expiry. -/
theorem World.exists_note_ne (r : Nat) (expiry : Option Instant) :
    ∃ world : World, (world.note r expiry).noted r ≠ world.noted r := by
  have hother : ∃ other : Option Instant, expiry ≠ other := by
    cases expiry with
    | none => exact ⟨some Instant.epoch, nofun⟩
    | some expiry => exact ⟨none, nofun⟩
  obtain ⟨other, hne⟩ := hother
  exact ⟨{ roles := List.replicate (r + 1) other }, by simpa [World.note, World.noted] using hne⟩

namespace CachedRole

/-- The callers that have come are at these stages. -/
structure IsStaged (cached : CachedRole) (now : Snapshot) (stage : TaskId → CacheStage) : Prop where
  away : ∀ task, now.callers task = none → stage task = .away
  isOf : ∀ task turn, now.callers task = some turn → turn.IsOf cached task (stage task)

/-- A caller that has come or gone on is at a stage. -/
theorem IsStaged.update {now after : Snapshot} {stage : TaskId → CacheStage} {me : TaskId}
    {turn : Turn Retrieved} {later : CacheStage} (staged : cached.IsStaged now stage)
    (hcallers : after.callers = Function.update now.callers me (some turn))
    (hturn : turn.IsOf cached me later) :
    cached.IsStaged after (Function.update stage me later) := by
  constructor
  case away =>
    intro task hnone
    by_cases heq : task = me
    · subst heq
      simp [hcallers] at hnone
    · rw [Function.update_of_ne heq]
      exact staged.away task (by simpa [hcallers, heq] using hnone)
  case isOf =>
    intro task other hother
    by_cases heq : task = me
    · subst heq
      obtain rfl : turn = other := by simpa [hcallers] using hother
      rwa [Function.update_self]
    · rw [Function.update_of_ne heq]
      exact staged.isOf task other (by simpa [hcallers, heq] using hother)

/-- Whatever comes next, the callers are at stages again. -/
theorem IsStaged.exists_next {now after : Snapshot} {event : Event} {stage : TaskId → CacheStage}
    (staged : cached.IsStaged now stage) (next : now.Next cached.provider event after) :
    ∃ later, cached.Next ⟨now.world, stage⟩ event ⟨after.world, later⟩ ∧
      cached.IsStaged after later := by
  cases next with
  | outside outside => exact ⟨stage, .outside outside, staged.away, staged.isOf⟩
  | @call caller hnew =>
    refine ⟨stage, .call caller, ?_⟩
    have hstaged : cached.IsStaged (now.call cached.provider caller)
        (Function.update stage caller .away) := staged.update rfl fun _ => Activity.performs_get
    rwa [← staged.away caller hnew, Function.update_eq_self] at hstaged
  | expiry => exact ⟨stage, .expiry, staged.away, staged.isOf⟩
  | @stride caller rest hrest hadmitted =>
    rcases (staged.isOf caller _ hrest now.world).stride with ⟨later, step, hlater⟩ |
        ⟨hsame, hasked, hstays⟩
    · exact ⟨_, .step hadmitted step, staged.update rfl hlater⟩
    · have hstaged : cached.IsStaged (now.stride caller rest)
          (Function.update stage caller (stage caller)) := staged.update rfl hstays
      rw [Function.update_eq_self] at hstaged
      refine ⟨stage, ?_, hstaged⟩
      rw [Snapshot.stride, hsame]
      exact .idle hasked

/-- The stages of the callers at every moment. -/
structure Staging (run : Interleaving cached.provider) (stage : Nat → TaskId → CacheStage) :
    Prop where
  start : ∀ task, stage 0 task = .away
  staged : ∀ n, cached.IsStaged (run.moment n) (stage n)
  next : ∀ n, cached.Next ⟨(run.moment n).world, stage n⟩ (run.event n)
    ⟨(run.moment (n + 1)).world, stage (n + 1)⟩

/-- The callers in every interleaving are at stages. -/
theorem exists_staging (run : Interleaving cached.provider) : ∃ stage, Staging run stage := by
  have hstart : cached.IsStaged (run.moment 0) fun _ => .away := by
    refine ⟨fun _ _ => rfl, fun task turn hturn => ?_⟩
    rw [run.nobody] at hturn
    cases hturn
  obtain ⟨stage, hzero, hstaged, hnext⟩ := run.exists_track hstart
    fun now event after stage next staged => staged.exists_next next
  exact ⟨stage, fun task => congrFun hzero task, hstaged, hnext⟩

namespace Staging

variable {run : Interleaving cached.provider} {stage : Nat → TaskId → CacheStage} {l m n : Nat}
  {task : TaskId} {result : Retrieved} {assumed : Credentials}

/-- At every moment, the scene is sound. -/
theorem sound (staging : Staging run stage) (n : Nat) :
    Scene.Sound cached.cache ⟨(run.moment n).world, stage n⟩ := by
  induction n with
  | zero =>
    have hstage : stage 0 = fun _ => .away := funext staging.start
    rw [hstage]
    exact run.sound_start
  | succ n ih => exact (staging.next n).sound ih

/-- At the beginning there are no credentials of the last assumption. -/
theorem not_current_zero (staging : Staging run stage) (credentials : Credentials) :
    ¬ cached.Current ⟨(run.moment 0).world, stage 0⟩ credentials := by
  rintro (⟨task, htask⟩ | ⟨-, hcached⟩)
  · simp [staging.start, CacheStage.answer?] at htask
  · have hcache : (run.moment 0).world.cache cached.cache = {} := run.untouched.cache_eq _
    simp [hcache] at hcached

/-- The note is about the credentials of the last assumption. -/
theorem agrees (staging : Staging run stage) (n : Nat) :
    cached.Agrees ⟨(run.moment n).world, stage n⟩ := by
  induction n with
  | zero => exact fun _ credentials hcurrent => absurd hcurrent (staging.not_current_zero _)
  | succ n ih => exact (staging.next n).agrees (staging.sound n) ih

/-- A caller stays at its stage, or does a step. -/
theorem stage_cases (staging : Staging run stage) (n : Nat) (task : TaskId) :
    stage (n + 1) task = stage n task ∧ (run.event n = .stride task → ¬ (stage n task).IsAsked) ∨
      run.event n = .stride task ∧ ¬ (run.moment n).world.IsWaiting task ∧
        cached.Step task (run.moment n).world (stage n task) (stage (n + 1) task)
          (run.moment (n + 1)).world :=
  (staging.next n).stage_cases task

/-- The stages fit the gate. -/
theorem tracks (staging : Staging run stage) : run.Tracks stage where
  sound := staging.sound
  stays n task result hgone := by
    rcases staging.stage_cases n task with ⟨heq, -⟩ | ⟨-, -, step⟩
    · rw [heq, hgone]
    · rw [hgone] at step
      cases step
  leaves n task hholds := (staging.next n).holder_cases (staging.sound n) hholds

/-- A caller that has come to its end has left. -/
theorem gone (staging : Staging run stage) (hreturned : run.Returned n task result) :
    stage n task = .gone result :=
  (staging.staged n).isOf task _ hreturned

/-- A caller that has left did so with a step from inside the gate. -/
theorem exists_leaving (staging : Staging run stage) (hgone : stage l task = .gone result) :
    ∃ n < l, run.event n = .stride task ∧ run.Holds n task ∧ stage (n + 1) task = .gone result ∧
      cached.Step task (run.moment n).world (stage n task) (.gone result)
        (run.moment (n + 1)).world := by
  induction l with
  | zero =>
    rw [staging.start] at hgone
    cases hgone
  | succ l ih =>
    rcases staging.stage_cases l task with ⟨heq, -⟩ | ⟨hevent, -, step⟩
    · obtain ⟨n, hnl, hleaves⟩ := ih (heq ▸ hgone)
      exact ⟨n, Nat.lt_succ_of_lt hnl, hleaves⟩
    · rw [hgone] at step
      exact ⟨l, Nat.lt_succ_self l, hevent, staging.tracks.holds step.gone_cases.1, hgone, step⟩

/-! ## Assumptions -/

/-- Whoever is at a stage later than `away` has come. -/
theorem exists_turn (staging : Staging run stage) (hstage : stage n task ≠ .away) :
    ∃ turn, (run.moment n).callers task = some turn ∧ turn.IsOf cached task (stage n task) := by
  cases hcaller : (run.moment n).callers task with
  | none => exact absurd ((staging.staged n).away task hcaller) hstage
  | some turn => exact ⟨turn, rfl, (staging.staged n).isOf task turn hcaller⟩

/-- A caller whose stage says after a stride that it has assumed the role has just done so. -/
theorem exists_assumes (staging : Staging run stage) (hevent : run.event n = .stride task)
    (hasked : (stage (n + 1) task).IsAsked) :
    ∃ assumed, run.Assumes n task assumed ∧
      (stage (n + 1) task).answer? = some (.ok (Role.handOut assumed)) := by
  obtain ⟨answer, hanswer⟩ := CacheStage.exists_answer hasked
  rcases staging.stage_cases n task with ⟨heq, hidle⟩ | ⟨-, -, step⟩
  · exact absurd (heq ▸ hasked) (hidle hevent)
  · rcases step.answer_cases hanswer with ⟨-, hnot⟩ | ⟨-, source, request, assumed, rfl, hassume⟩
    · exact absurd hasked hnot
    · refine ⟨assumed, ⟨hevent, ⟨source, request, hassume⟩, ?_⟩, hanswer⟩
      have hcome : stage (n + 1) task ≠ .away := by
        intro haway
        rw [haway] at hasked
        exact hasked
      obtain ⟨turn, hturn, hisOf⟩ := staging.exists_turn hcome
      cases turn with
      | waiting rest =>
        refine ⟨rest, hturn, fun world => ?_⟩
        have hnote := (hisOf world).note hasked hanswer
        rwa [Role.expiry_handOut] at hnote
      | finished result =>
        rw [hisOf] at hasked
        exact hasked.elim
      | failed => exact absurd hasked hisOf

/-- The stage of a caller that has just assumed the role says so. -/
theorem asked_of_assumes (staging : Staging run stage) (hassumes : run.Assumes n task assumed) :
    (stage (n + 1) task).IsAsked ∧
      (stage (n + 1) task).answer? = some (.ok (Role.handOut assumed)) := by
  obtain ⟨hevent, ⟨source, request, hanswer⟩, rest, hrest, hnote⟩ := hassumes
  have hasked : (stage (n + 1) task).IsAsked := by
    by_contra hnot
    -- only a caller that has assumed the role changes the note in every world
    obtain ⟨world, hne⟩ := World.exists_note_ne cached.note assumed.expiry
    have hperforms := (staging.staged (n + 1)).isOf task _ hrest world
    rcases hperforms.stride with ⟨later, step, -⟩ | ⟨hsame, -⟩
    · exact hne (hnote world ▸ step.noted_of_not_asked hnot)
    · exact hne (congrArg (World.noted · cached.note) ((hnote world).symm.trans hsame))
  obtain ⟨other, hother, hstage⟩ := staging.exists_assumes hevent hasked
  obtain ⟨last, asked, hlast⟩ := hother.answer
  have hsame := (run.moment n).world.assume_answer_eq cached.assumer source last request asked
  rw [hanswer, hlast] at hsame
  obtain rfl : assumed = other := Except.ok.inj hsame
  exact ⟨hasked, hstage⟩

end Staging

end CachedRole

end CloudSession
