import CloudSession.Proofs.CredentialsCache.Stage
import CloudSession.Proofs.Interplay.Soundness

/-!
# Interleavings

Any number of callers share a cache, each on a thread of its own: they go on in strides, in any
order, and between two strides of one of them anything may happen, be it strides of others, an
expiry by hand or something outside. No caller is dropped. Events that can happen one after another
make up an interleaving, in which nothing else ever happens.
-/

namespace CloudSession

/-- The world and the callers of a cache. -/
structure Snapshot where
  world : World
  /-- How far each caller that has come is. -/
  callers : TaskId → Option (Turn Retrieved)

/-- What happens next. -/
inductive Event where
  /-- The parties outside do as they like: what the provider is going to answer, how long that takes
  and whether it calls its credentials expired is up to them. -/
  | outside
  /-- Somebody asks for the credentials. -/
  | call (task : TaskId)
  /-- Somebody expires the credentials by hand. -/
  | expiry
  /-- A caller goes on. -/
  | stride (task : TaskId)
  deriving DecidableEq

namespace Snapshot

/-- One more caller asks for the credentials. -/
def call (now : Snapshot) (cached : CachedProvider) (task : TaskId) : Snapshot :=
  { now with callers := Function.update now.callers task (some (.waiting cached.get)) }

/-- Somebody expires the credentials. -/
def expire (now : Snapshot) (cached : CachedProvider) : Snapshot :=
  { now with world := cached.expire now.world }

/-- A caller that is at some activity goes on. -/
def stride (now : Snapshot) (task : TaskId) (rest : Activity Retrieved) : Snapshot where
  world := (rest.stride task now.world).2
  callers := Function.update now.callers task (some (rest.stride task now.world).1)

/-- What can come next. A caller that waits at a gate does not go on before it is let in. -/
inductive Next (cached : CachedProvider) (now : Snapshot) : Event → Snapshot → Prop
  | outside {world : World} : now.world.Outside world → Next cached now .outside { now with world }
  | call {task : TaskId} : now.callers task = none →
      Next cached now (.call task) (now.call cached task)
  | expiry : Next cached now .expiry (now.expire cached)
  | stride {task : TaskId} {rest : Activity Retrieved} : now.callers task = some (.waiting rest) →
      ¬ now.world.IsWaiting task → Next cached now (.stride task) (now.stride task rest)

end Snapshot

/-- What happens to a cache and its callers from the beginning, when nobody has used it, and ever
after. Nothing has to happen: the parties outside may leave the world as it is. -/
structure Interleaving (cached : CachedProvider) where
  moment : Nat → Snapshot
  /-- What happens between a moment and the next. -/
  event : Nat → Event
  untouched : (moment 0).world.Untouched
  known : cached.cache < (moment 0).world.caches.length
  nobody : ∀ task, (moment 0).callers task = none
  next : ∀ n, (moment n).Next cached (event n) (moment (n + 1))

section Play

variable {cached : CachedProvider} {now : Snapshot} {event : Event} {task : TaskId}

/-- A task waits if it stands in the queue of some manager or some cache. -/
theorem World.isWaiting_iff {world : World} : world.IsWaiting task ↔
    (∃ entry ∈ world.managers, ∃ call ∈ entry.manager.gate.queue, call.task = task) ∨
      ∃ cache ∈ world.caches, task ∈ cache.gate.queue := by
  constructor
  · rintro ⟨place, hplace⟩
    cases place with
    | manager id =>
      rw [queueAt, manager, managed, List.getD_eq_getElem?_getD] at hplace
      cases hentry : world.managers[id]? with
      | none => simp [hentry] at hplace
      | some entry =>
        rw [hentry] at hplace
        exact .inl ⟨entry, List.mem_of_getElem? hentry, List.mem_map.mp hplace⟩
    | cache id =>
      rw [queueAt, cache, List.getD_eq_getElem?_getD] at hplace
      cases hcache : world.caches[id]? with
      | none => simp [hcache] at hplace
      | some cache =>
        rw [hcache] at hplace
        exact .inr ⟨cache, List.mem_of_getElem? hcache, hplace⟩
  · rintro (⟨entry, hentry, hcall⟩ | ⟨cache, hcache, hqueue⟩)
    · obtain ⟨id, hid⟩ := List.mem_iff_getElem?.mp hentry
      refine ⟨.manager id, List.mem_map.mpr ?_⟩
      rwa [manager, managed, List.getD_eq_getElem?_getD, hid]
    · obtain ⟨id, hid⟩ := List.mem_iff_getElem?.mp hcache
      refine ⟨.cache id, ?_⟩
      rwa [queueAt, World.cache, List.getD_eq_getElem?_getD, hid]

/-- Whether a task waits can be computed. -/
instance (world : World) (task : TaskId) : Decidable (world.IsWaiting task) :=
  decidable_of_iff _ World.isWaiting_iff.symm

/-- Whether an event can happen. -/
def Snapshot.allows (now : Snapshot) : Event → Bool
  | .outside | .expiry => true
  | .call task => (now.callers task).isNone
  | .stride task =>
    match now.callers task with
    | some (.waiting _) => !decide (now.world.IsWaiting task)
    | _ => false

/-- The snapshot after an event. The parties outside do nothing. -/
def Snapshot.happen (cached : CachedProvider) (now : Snapshot) : Event → Snapshot
  | .outside => now
  | .call task => now.call cached task
  | .expiry => now.expire cached
  | .stride task =>
    match now.callers task with
    | some (.waiting rest) => now.stride task rest
    | _ => now

/-- What happens to a snapshot is a next step, if the snapshot allows it. -/
theorem Snapshot.next_happen (hallows : now.allows event = true) :
    now.Next cached event (now.happen cached event) := by
  cases event with
  | outside => exact .outside ⟨rfl, rfl, rfl, rfl⟩
  | call task => exact .call (Option.isNone_iff_eq_none.mp hallows)
  | expiry => exact .expiry
  | stride task =>
    cases hcaller : now.callers task with
    | none => simp [allows, hcaller] at hallows
    | some turn =>
      cases turn with
      | waiting rest =>
        have hadmitted : ¬ now.world.IsWaiting task := by simpa [allows, hcaller] using hallows
        have hhappen : now.happen cached (.stride task) = now.stride task rest := by
          simp [happen, hcaller]
        rw [hhappen]
        exact .stride hcaller hadmitted
      | _ => simp [allows, hcaller] at hallows

/-- The snapshots while events happen one after another, and nothing after them. -/
def Snapshot.play (cached : CachedProvider) : Snapshot → List Event → Nat → Snapshot
  | now, [], _ => now
  | now, _, 0 => now
  | now, event :: rest, n + 1 => play cached (now.happen cached event) rest n

/-- Whether events can happen one after another. -/
def Snapshot.allowsAll (cached : CachedProvider) : Snapshot → List Event → Bool
  | _, [] => true
  | now, event :: rest => now.allows event && (now.happen cached event).allowsAll cached rest

/-- All events that are played are next steps one after another, if they are allowed. -/
theorem Snapshot.next_play {events : List Event} (hallows : now.allowsAll cached events = true)
    (n : Nat) : (now.play cached events n).Next cached (events.getD n .outside)
      (now.play cached events (n + 1)) := by
  induction events generalizing now n with
  | nil => exact .outside ⟨rfl, rfl, rfl, rfl⟩
  | cons event rest ih =>
    obtain ⟨hfirst, hrest⟩ := Bool.and_eq_true_iff.mp hallows
    cases n with
    | zero =>
      have hplay : now.play cached (event :: rest) 1 = now.happen cached event := by
        cases rest <;> rfl
      rw [hplay]
      exact next_happen hfirst
    | succ n => exact ih hrest n

/-- The interleaving in which events happen one after another, from an untouched world on. -/
def Interleaving.play (cached : CachedProvider) (world : World) (untouched : world.Untouched)
    (known : cached.cache < world.caches.length) (events : List Event)
    (hallows : Snapshot.allowsAll cached ⟨world, fun _ => none⟩ events = true) :
    Interleaving cached where
  moment := Snapshot.play cached ⟨world, fun _ => none⟩ events
  event n := events.getD n .outside
  untouched := by cases events <;> exact untouched
  known := by cases events <;> exact known
  nobody _ := by cases events <;> rfl
  next := Snapshot.next_play hallows

end Play

namespace Interleaving

variable {cached : CachedProvider}

/-- The cache at a moment. -/
def cache (run : Interleaving cached) (n : Nat) : CredentialsCache :=
  (run.moment n).world.cache cached.cache

/-- A caller is inside the gate. -/
def Holds (run : Interleaving cached) (n : Nat) (task : TaskId) : Prop :=
  (run.cache n).gate.holder = some task

/-- A caller has come to its end with this result. -/
def Returned (run : Interleaving cached) (n : Nat) (task : TaskId) (result : Retrieved) : Prop :=
  (run.moment n).callers task = some (.finished result)

/-- A caller awaits an answer of the provider, which is the only thing that callers sleep for. -/
def InFlight (run : Interleaving cached) (n : Nat) (task : TaskId) : Prop :=
  ∃ turn, (run.moment n).callers task = some turn ∧ turn.IsAsleep

/-- After a moment, a caller asks the provider for the answer, and awaits it from then on. -/
structure Asks (run : Interleaving cached) (script n : Nat) (task : TaskId) (answer : Retrieved) :
    Prop where
  event : run.event n = .stride task
  world : (run.moment (n + 1)).world = ((run.moment n).world.askProvider script).1
  inFlight : run.InFlight (n + 1) task
  answer : (run.moment n).world.nextAnswer script = answer

/-- What can be kept up from each moment to the next can be kept up forever. -/
theorem exists_sequence {σ : Type} {Fits : Nat → σ → Prop} {GoesOn : Nat → σ → σ → Prop} {start : σ}
    (hstart : Fits 0 start)
    (hnext : ∀ n state, Fits n state → ∃ later, GoesOn n state later ∧ Fits (n + 1) later) :
    ∃ track : Nat → σ, track 0 = start ∧ (∀ n, Fits n (track n)) ∧
      ∀ n, GoesOn n (track n) (track (n + 1)) := by
  choose later hgoesOn hlater using fun (n : Nat) (state : {state // Fits n state}) =>
    hnext n state state.2
  let track (n : Nat) : {state // Fits n state} :=
    Nat.rec ⟨start, hstart⟩ (fun n state => ⟨later n state, hlater n state⟩) n
  exact ⟨fun n => (track n).1, rfl, fun n => (track n).2, fun n => hgoesOn n (track n)⟩

/-- What can be kept up through whatever comes next can be kept up through an interleaving. -/
theorem exists_track {σ : Type} (run : Interleaving cached) {Fits : Snapshot → σ → Prop}
    {GoesOn : Snapshot → σ → Event → Snapshot → σ → Prop} {start : σ}
    (hstart : Fits (run.moment 0) start)
    (hnext : ∀ now event after state, now.Next cached event after → Fits now state →
      ∃ later, GoesOn now state event after later ∧ Fits after later) :
    ∃ track : Nat → σ, track 0 = start ∧ (∀ n, Fits (run.moment n) (track n)) ∧
      ∀ n, GoesOn (run.moment n) (track n) (run.event n) (run.moment (n + 1)) (track (n + 1)) :=
  exists_sequence hstart fun n state hfits => hnext _ _ _ state (run.next n) hfits

end Interleaving

end CloudSession
