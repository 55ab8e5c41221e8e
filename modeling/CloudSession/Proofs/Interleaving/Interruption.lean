import CloudSession.Proofs.Interleaving.Staging

/-!
# Interruptions

Callers share a cache as in an interleaving, and besides, any of them may be dropped, wherever it is:
while it waits at the gate, once it has been let in, or while it awaits the provider. A caller that
is dropped goes away from the gate and does nothing any more. Nothing is left of it, so it may come
again. An interleaving is a run in which nobody is dropped, and what a caller does in its strides is
the same in both.
-/

namespace CloudSession

/-- What happens next, where callers may be dropped. -/
inductive Incident where
  | event (event : Event)
  /-- A caller is dropped. -/
  | drop (task : TaskId)
  deriving DecidableEq

/-! ## Letting go -/

/-- In each cache, what a caller held or waited for is given up when it is released. -/
theorem World.cache_release (world : World) (task : TaskId) (c : Nat) :
    (world.release task).cache c = (world.cache c).leave task := by
  cases hcache : world.caches[c]? with
  | none =>
    have habsent : ({} : CredentialsCache).leave task = {} := rfl
    simp [World.cache, World.release, hcache, habsent]
  | some cache => simp [World.cache, World.release, hcache]

/-- There are as many caches when a caller is released. -/
theorem World.length_caches_release (world : World) (task : TaskId) :
    (world.release task).caches.length = world.caches.length := by
  simp [World.release]

/-! ## Runs -/

namespace Snapshot

/-- A caller is dropped, and lets go of what it holds. -/
def drop (now : Snapshot) (task : TaskId) : Snapshot where
  world := now.world.release task
  callers := Function.update now.callers task none

/-- What can come next, where callers may be dropped as long as they have not come to their end. -/
inductive Follows (cached : CachedProvider) (now : Snapshot) : Incident → Snapshot → Prop
  | event {event : Event} {after : Snapshot} : now.Next cached event after →
      Follows cached now (.event event) after
  | drop {task : TaskId} {rest : Activity Retrieved} : now.callers task = some (.waiting rest) →
      Follows cached now (.drop task) (now.drop task)

end Snapshot

/-- What happens to a cache and its callers from the beginning, when nobody has used it, and ever
after. Callers may be dropped. -/
structure InterruptibleRun (cached : CachedProvider) where
  moment : Nat → Snapshot
  /-- What happens between a moment and the next. -/
  incident : Nat → Incident
  untouched : (moment 0).world.Untouched
  known : cached.cache < (moment 0).world.caches.length
  nobody : ∀ task, (moment 0).callers task = none
  next : ∀ n, (moment n).Follows cached (incident n) (moment (n + 1))

/-- An interleaving, in which nobody is dropped. -/
def Interleaving.interruptible {cached : CachedProvider} (run : Interleaving cached) :
    InterruptibleRun cached where
  moment := run.moment
  incident n := .event (run.event n)
  untouched := run.untouched
  known := run.known
  nobody := run.nobody
  next n := .event (run.next n)

section Play

variable {cached : CachedProvider} {now : Snapshot} {incident : Incident}

/-- Whether it can happen. -/
def Snapshot.admits (now : Snapshot) : Incident → Bool
  | .event event => now.allows event
  | .drop task =>
    match now.callers task with
    | some (.waiting _) => true
    | _ => false

/-- The snapshot after it. The parties outside do nothing. -/
def Snapshot.undergo (cached : CachedProvider) (now : Snapshot) : Incident → Snapshot
  | .event event => now.happen cached event
  | .drop task => now.drop task

/-- What a snapshot undergoes follows from it, if it admits it. -/
theorem Snapshot.follows_undergo (hadmits : now.admits incident = true) :
    now.Follows cached incident (now.undergo cached incident) := by
  cases incident with
  | event event => exact .event (next_happen hadmits)
  | drop task =>
    cases hcaller : now.callers task with
    | none => simp [admits, hcaller] at hadmits
    | some turn =>
      cases turn with
      | waiting rest => exact .drop hcaller
      | _ => simp [admits, hcaller] at hadmits

/-- The snapshots while one thing happens after another, and nothing after them. -/
def Snapshot.endure (cached : CachedProvider) (now : Snapshot) (incidents : List Incident)
    (n : Nat) : Snapshot :=
  (incidents.take n).foldl (undergo cached) now

/-- Whether one thing can happen after another. -/
def Snapshot.admitsAll (cached : CachedProvider) : Snapshot → List Incident → Bool
  | _, [] => true
  | now, incident :: rest => now.admits incident && (now.undergo cached incident).admitsAll cached rest

/-- All that a snapshot endures follows step by step, if it admits it. -/
theorem Snapshot.follows_endure {incidents : List Incident}
    (hadmits : now.admitsAll cached incidents = true) (n : Nat) :
    (now.endure cached incidents n).Follows cached (incidents.getD n (.event .outside))
      (now.endure cached incidents (n + 1)) := by
  induction incidents generalizing now n with
  | nil =>
    have hafter (n : Nat) : now.endure cached [] n = now := by simp [endure]
    rw [hafter, hafter]
    exact .event (.outside ⟨rfl, rfl, rfl, rfl⟩)
  | cons incident rest ih =>
    obtain ⟨hfirst, hrest⟩ := Bool.and_eq_true_iff.mp hadmits
    cases n with
    | zero => exact follows_undergo hfirst
    | succ n => exact ih hrest n

/-- The run in which one thing happens after another, from an untouched world on. -/
def InterruptibleRun.play (cached : CachedProvider) (world : World) (untouched : world.Untouched)
    (known : cached.cache < world.caches.length) (incidents : List Incident)
    (hadmits : Snapshot.admitsAll cached ⟨world, fun _ => none⟩ incidents = true) :
    InterruptibleRun cached where
  moment := Snapshot.endure cached ⟨world, fun _ => none⟩ incidents
  incident n := incidents.getD n (.event .outside)
  untouched := untouched
  known := known
  nobody _ := rfl
  next := Snapshot.follows_endure hadmits

end Play

namespace InterruptibleRun

variable {cached : CachedProvider}

/-- The cache at a moment. -/
def cache (run : InterruptibleRun cached) (n : Nat) : CredentialsCache :=
  (run.moment n).world.cache cached.cache

/-- A caller is inside the gate. -/
def Holds (run : InterruptibleRun cached) (n : Nat) (task : TaskId) : Prop :=
  (run.cache n).gate.holder = some task

/-- A caller is inside the gate from one moment to another. -/
def HeldThrough (run : InterruptibleRun cached) (m n : Nat) (task : TaskId) : Prop :=
  ∀ k, m ≤ k → k ≤ n → run.Holds k task

/-- A caller has come to its end with this result. -/
def Returned (run : InterruptibleRun cached) (n : Nat) (task : TaskId) (result : Retrieved) : Prop :=
  (run.moment n).callers task = some (.finished result)

/-- A caller awaits an answer of the provider, which is the only thing that callers sleep for. -/
def InFlight (run : InterruptibleRun cached) (n : Nat) (task : TaskId) : Prop :=
  ∃ turn, (run.moment n).callers task = some turn ∧ turn.IsAsleep

/-- After a moment, a caller asks the provider for the answer, and awaits it from then on. -/
structure Asks (run : InterruptibleRun cached) (script n : Nat) (task : TaskId)
    (answer : Retrieved) : Prop where
  incident : run.incident n = .event (.stride task)
  world : (run.moment (n + 1)).world = ((run.moment n).world.askProvider script).1
  inFlight : run.InFlight (n + 1) task
  answer : (run.moment n).world.nextAnswer script = answer

end InterruptibleRun

/-! ## Scenes -/

variable {c script : Nat} {scene after : Scene} {incident : Incident} {task : TaskId}

/-- What can come next in a scene. -/
inductive Scene.Follows (c script : Nat) (scene : Scene) : Incident → Scene → Prop
  | event {event : Event} {after : Scene} : scene.Next c script event after →
      Follows c script scene (.event event) after
  | drop (task : TaskId) : Follows c script scene (.drop task)
      ⟨scene.world.release task, Function.update scene.stage task .away⟩

namespace Scene

/-- Whatever comes next keeps what holds. -/
theorem Sound.follows (sound : scene.Sound c) (follows : scene.Follows c script incident after) :
    after.Sound c := by
  cases follows with
  | event next => exact sound.next next
  | drop task =>
    refine ⟨by rw [World.length_caches_release]; exact sound.known, ?_⟩
    rw [World.cache_release]
    exact sound.admits.goAway id

/-- A caller stays at its stage, does a step, or is dropped. -/
theorem Follows.stage_cases (follows : scene.Follows c script incident after) (task : TaskId) :
    after.stage task = scene.stage task ∨
      (incident = .event (.stride task) ∧ ¬ scene.world.IsWaiting task ∧
        CacheStage.Step c script task scene.world (scene.stage task) (after.stage task)
          after.world) ∨
      incident = .drop task ∧ after.stage task = .away := by
  cases follows with
  | event next =>
    rcases next.stage_cases task with hsame | ⟨rfl, hstep⟩
    · exact .inl hsame
    · exact .inr (.inl ⟨rfl, hstep⟩)
  | drop other =>
    by_cases heq : task = other
    · subst heq
      exact .inr (.inr ⟨rfl, Function.update_self ..⟩)
    · exact .inl (Function.update_of_ne heq _ _)

end Scene

/-! ## Stages -/

/-- Whatever comes next, the callers are at stages again. -/
theorem Snapshot.Follows.exists_stage {now later : Snapshot} {stage : TaskId → CacheStage}
    (follows : now.Follows ⟨c, .scripted script⟩ incident later)
    (staged : now.IsStaged c script stage) :
    ∃ next, Scene.Follows c script ⟨now.world, stage⟩ incident ⟨later.world, next⟩ ∧
      later.IsStaged c script next := by
  cases follows with
  | event next =>
    obtain ⟨stages, hnext, hstaged⟩ := next.exists_stage staged
    exact ⟨stages, .event hnext, hstaged⟩
  | @drop dropped rest hrest =>
    refine ⟨Function.update stage dropped .away, .drop dropped, fun task hnone => ?_,
      fun task turn hturn => ?_⟩
    · by_cases heq : task = dropped
      · rw [heq, Function.update_self]
      · rw [Function.update_of_ne heq]
        exact staged.away task (by simpa [Snapshot.drop, heq] using hnone)
    · by_cases heq : task = dropped
      · simp [Snapshot.drop, heq] at hturn
      · rw [Function.update_of_ne heq]
        exact staged.isAt task turn (by simpa [Snapshot.drop, heq] using hturn)

namespace InterruptibleRun

variable {run : InterruptibleRun ⟨c, .scripted script⟩} {stage : Nat → TaskId → CacheStage}
  {m n : Nat} {result : Retrieved}

/-- The stages of the callers at every moment. -/
structure Staging (run : InterruptibleRun ⟨c, .scripted script⟩)
    (stage : Nat → TaskId → CacheStage) : Prop where
  start : ∀ task, stage 0 task = .away
  staged : ∀ n, (run.moment n).IsStaged c script (stage n)
  next : ∀ n, Scene.Follows c script ⟨(run.moment n).world, stage n⟩ (run.incident n)
    ⟨(run.moment (n + 1)).world, stage (n + 1)⟩

/-- The callers in every run are at stages. -/
theorem exists_staging (run : InterruptibleRun ⟨c, .scripted script⟩) :
    ∃ stage, run.Staging stage := by
  let Fits (n : Nat) (stage : TaskId → CacheStage) : Prop := (run.moment n).IsStaged c script stage
  let GoesOn (n : Nat) (now later : TaskId → CacheStage) : Prop :=
    Scene.Follows c script ⟨(run.moment n).world, now⟩ (run.incident n)
      ⟨(run.moment (n + 1)).world, later⟩
  have hstart : Fits 0 fun _ => .away := by
    refine ⟨fun _ _ => rfl, fun task turn hturn => ?_⟩
    rw [run.nobody] at hturn
    cases hturn
  have hfollows (n : Nat) (now : TaskId → CacheStage) (staged : Fits n now) :
      ∃ later, GoesOn n now later ∧ Fits (n + 1) later :=
    (run.next n).exists_stage staged
  obtain ⟨stage, hzero, hstaged, hnext⟩ := Interleaving.exists_sequence hstart hfollows
  exact ⟨stage, fun task => congrFun hzero task, hstaged, hnext⟩

end InterruptibleRun

/-- The stages of an interleaving, as those of a run in which nobody is dropped. -/
theorem Interleaving.Staging.interruptible {run : Interleaving ⟨c, .scripted script⟩}
    {stage : Nat → TaskId → CacheStage} (staging : run.Staging stage) :
    run.interruptible.Staging stage :=
  ⟨staging.start, staging.staged, fun n => .event (staging.next n)⟩

end CloudSession
