import CloudSession.Proofs.CredentialsCache.Deed
import CloudSession.Proofs.TokenManager.Coherence
import CloudSession.World

/-!
# What one task does to the world

A deed of a task changes each token manager and each cache by a deed there, and leaves the clock
alone. `World.Sound` collects what no deed breaks: the managers are coherent, no task calls twice at
a gate, and no task waits at two gates. What happens outside changes neither managers nor caches.
How a task stands at the gates is not affected by what happens elsewhere, except that it may be let
in.
-/

namespace CloudSession

/-- The places where tasks wait for one another. -/
inductive Place where
  | manager (id : ManagerId)
  | cache (id : Nat)
  deriving DecidableEq

namespace World

variable {world after : World} {me : RefreshCall} {task : TaskId} {id : Nat}

/-- A manager is changed just if it is the one that is altered and exists. -/
theorem manager_alterManager (world : World) (id other : ManagerId)
    (f : TokenManager → TokenManager) :
    (world.alterManager id f).manager other =
      if id = other ∧ id < world.managers.length then f (world.manager other)
      else world.manager other := by
  by_cases hlt : id < world.managers.length
  · by_cases heq : id = other
    · subst heq
      simp [manager, managed, alterManager, hlt]
    · simp [manager, managed, alterManager, heq]
  · have hmodify :
        world.managers.modify id (fun entry => { entry with manager := f entry.manager }) =
          world.managers := List.modify_eq_self (Nat.le_of_not_lt hlt)
    simp [manager, managed, alterManager, hlt, hmodify]

/-- Who uses a manager is not part of its state. -/
theorem manager_modify (world : World) (id other : ManagerId) {f : Managed → Managed}
    (h : ∀ entry, (f entry).manager = entry.manager) :
    ({ world with managers := world.managers.modify id f } : World).manager other =
      world.manager other := by
  simp only [manager, managed, List.getD_eq_getElem?_getD, List.getElem?_modify]
  cases world.managers[other]? with
  | none => rfl
  | some entry => by_cases heq : id = other <;> simp [heq, h]

/-- To let go of a manager leaves what it knows alone. -/
theorem manager_drop (world : World) (id other : ManagerId) :
    (world.drop id).manager other = world.manager other :=
  manager_modify world id other fun _ => rfl

/-- To engage a manager leaves what it knows alone. -/
theorem manager_engage (world : World) (id other : ManagerId) :
    (world.engage id).manager other = world.manager other :=
  manager_modify world id other fun _ => rfl

/-- To let a manager go leaves what it knows alone. -/
theorem manager_disengage (world : World) (id other : ManagerId) :
    (world.disengage id).manager other = world.manager other :=
  manager_modify world id other fun _ => rfl

/-- A cache is changed just if it is the one that is altered and exists. -/
theorem cache_alterCache (world : World) (id other : Nat) (f : CredentialsCache → CredentialsCache) :
    (world.alterCache id f).cache other =
      if id = other ∧ id < world.caches.length then f (world.cache other)
      else world.cache other := by
  by_cases hlt : id < world.caches.length
  · by_cases heq : id = other
    · subst heq
      simp [cache, alterCache, hlt]
    · simp [cache, alterCache, heq]
  · have hmodify : world.caches.modify id f = world.caches :=
      List.modify_eq_self (Nat.le_of_not_lt hlt)
    simp [cache, alterCache, hlt, hmodify]

/-- A change of a manager leaves the caches alone. -/
@[simp] theorem cache_alterManager (world : World) (id : ManagerId) (f : TokenManager → TokenManager)
    (other : Nat) : (world.alterManager id f).cache other = world.cache other := rfl

/-- The tasks at a gate, the one inside first. -/
def callersAt (world : World) : Place → List TaskId
  | .manager id => (world.manager id).gate.callers.map RefreshCall.task
  | .cache id => (world.cache id).gate.callers

/-- The tasks that wait at a gate. -/
def queueAt (world : World) : Place → List TaskId
  | .manager id => (world.manager id).gate.queue.map RefreshCall.task
  | .cache id => (world.cache id).gate.queue

/-- Whether a task is at some gate. -/
def IsCaller (world : World) (task : TaskId) : Prop :=
  ∃ place, task ∈ world.callersAt place

/-- Whether a task waits at some gate. -/
def IsWaiting (world : World) (task : TaskId) : Prop :=
  ∃ place, task ∈ world.queueAt place

/-- What no deed breaks. -/
structure Sound (world : World) : Prop where
  coherent : ∀ id, (world.manager id).Coherent
  distinct : ∀ id, (world.cache id).gate.callers.Nodup
  once : ∀ (task : TaskId) (place other : Place), task ∈ world.queueAt place →
    task ∈ world.queueAt other → place = other

/-- What a task does to the world at once. It waits at one gate at most. -/
structure Deed (me : RefreshCall) (world after : World) : Prop where
  managers : ∀ id, (world.manager id).Deed me world.now world.elapsed (after.manager id)
  caches : ∀ id, (world.cache id).Deed me.task (after.cache id)
  once : ∀ place other : Place, me.task ∈ after.queueAt place → me.task ∈ after.queueAt other →
    place = other
  managerCount : after.managers.length = world.managers.length
  cacheCount : after.caches.length = world.caches.length
  clock : after.now = world.now
  elapsed : after.elapsed = world.elapsed

/-- What happens outside, among it the passing of time. -/
structure Outside (world after : World) : Prop where
  managers : after.managers = world.managers
  caches : after.caches = world.caches
  chains : after.chains = world.chains
  roles : after.roles = world.roles

/-- What happens outside leaves the managers alone. -/
theorem Outside.managed_eq (outside : world.Outside after) (id : ManagerId) :
    after.managed id = world.managed id := by
  rw [managed, managed, outside.managers]

/-- What happens outside leaves what managers know alone. -/
theorem Outside.manager_eq (outside : world.Outside after) (id : ManagerId) :
    after.manager id = world.manager id :=
  congrArg Managed.manager (outside.managed_eq id)

/-- What happens outside leaves the caches alone. -/
theorem Outside.cache_eq (outside : world.Outside after) (id : Nat) :
    after.cache id = world.cache id := by
  simp [cache, outside.caches]

/-- A task that is made to wait by a deed is the one whose deed it is. -/
theorem Deed.mem_queueAt (deed : world.Deed me after) (hne : task ≠ me.task) {place : Place}
    (h : task ∈ after.queueAt place) : task ∈ world.queueAt place := by
  cases place with
  | manager id =>
    obtain ⟨call, hcall, rfl⟩ := List.mem_map.mp h
    exact List.mem_map.mpr ⟨call, (deed.managers id).move.queue_of hne hcall, rfl⟩
  | cache id => exact (deed.caches id).move.queue_of hne h

/-- A task that is brought to a gate by a deed is the one whose deed it is. -/
theorem Deed.isCaller (deed : world.Deed me after) (hne : task ≠ me.task) (h : after.IsCaller task) :
    world.IsCaller task := by
  obtain ⟨place, hplace⟩ := h
  refine ⟨place, ?_⟩
  cases place with
  | manager id =>
    obtain ⟨call, hcall, rfl⟩ := List.mem_map.mp hplace
    exact List.mem_map.mpr ⟨call, (deed.managers id).move.callers_of hne hcall, rfl⟩
  | cache id => exact (deed.caches id).move.callers_of hne hplace

/-- Every deed keeps a sound world sound. -/
theorem Deed.sound (deed : world.Deed me after) (sound : world.Sound) : after.Sound where
  coherent id := (deed.managers id).coherent (sound.coherent id)
  distinct id := by simpa using (deed.caches id).move.nodup (by simpa using sound.distinct id)
  once task place other hplace hother := by
    by_cases heq : task = me.task
    · subst heq
      exact deed.once place other hplace hother
    · exact sound.once task place other (deed.mem_queueAt heq hplace) (deed.mem_queueAt heq hother)

/-- What happens outside leaves the queues alone. -/
theorem Outside.queueAt_eq (outside : world.Outside after) (place : Place) :
    after.queueAt place = world.queueAt place := by
  cases place <;> simp [queueAt, outside.manager_eq, outside.cache_eq]

/-- Nobody becomes a caller by what happens outside. -/
theorem Outside.isCaller (outside : world.Outside after) (h : after.IsCaller task) :
    world.IsCaller task := by
  obtain ⟨place, hplace⟩ := h
  refine ⟨place, ?_⟩
  cases place with
  | manager id => simpa [callersAt, outside.manager_eq] using hplace
  | cache id => simpa [callersAt, outside.cache_eq] using hplace

/-- What happens outside keeps a sound world sound. -/
theorem Outside.sound (outside : world.Outside after) (sound : world.Sound) : after.Sound where
  coherent id := outside.manager_eq id ▸ sound.coherent id
  distinct id := outside.cache_eq id ▸ sound.distinct id
  once task place other hplace hother :=
    sound.once task place other (outside.queueAt_eq place ▸ hplace)
      (outside.queueAt_eq other ▸ hother)

/-- What a world keeps of an earlier one: its managers and caches, and the calls of token
sources. -/
structure Precedes (world later : World) : Prop where
  managers : ∀ id, (world.manager id).Precedes (later.manager id)
  policies : ∀ id, (later.manager id).policy = (world.manager id).policy
  managerCount : later.managers.length = world.managers.length
  cacheCount : later.caches.length = world.caches.length

/-- A world precedes itself. -/
theorem Precedes.refl (world : World) : world.Precedes world :=
  ⟨fun _ => .refl _, fun _ => rfl, rfl, rfl⟩

/-- What precedes a world precedes those that it precedes. -/
theorem Precedes.trans {later : World} (hafter : world.Precedes after)
    (hlater : after.Precedes later) : world.Precedes later where
  managers id := (hafter.managers id).trans (hlater.managers id)
  policies id := (hlater.policies id).trans (hafter.policies id)
  managerCount := hlater.managerCount.trans hafter.managerCount
  cacheCount := hlater.cacheCount.trans hafter.cacheCount

/-- A deed leads to a world that the earlier one precedes. -/
theorem Deed.precedes (deed : world.Deed me after) : world.Precedes after where
  managers id := (deed.managers id).precedes
  policies id := (deed.managers id).policy_eq
  managerCount := deed.managerCount
  cacheCount := deed.cacheCount

/-- What happens outside leads to a world that the earlier one precedes. -/
theorem Outside.precedes (outside : world.Outside after) : world.Precedes after where
  managers id := by
    rw [outside.manager_eq]
    exact .refl _
  policies id := by rw [outside.manager_eq]
  managerCount := by rw [outside.managers]
  cacheCount := by rw [outside.caches]

/-- What can happen between two turns of a task: deeds of others and what happens outside. -/
def Elsewhere (task : TaskId) (world after : World) : Prop :=
  (∃ other : RefreshCall, other.task ≠ task ∧ world.Deed other after) ∨ world.Outside after

/-- How a task stands at the gates: it is inside those of some caches, and away from all others but
one place, if one is named. -/
structure Standing (world : World) (task : TaskId) (held : List Nat) (spot : Option Place) :
    Prop where
  sound : world.Sound
  managers : ∀ id, spot ≠ some (.manager id) → (world.manager id).IsAway task
  caches : ∀ id, spot ≠ some (.cache id) → id ∉ held → task ∉ (world.cache id).gate.callers
  inside : ∀ id ∈ held, (world.cache id).gate.holder = some task

namespace Elsewhere

/-- What happens elsewhere keeps a world sound. -/
theorem sound (elsewhere : Elsewhere task world after) (sound : world.Sound) : after.Sound := by
  rcases elsewhere with ⟨other, -, deed⟩ | outside
  · exact deed.sound sound
  · exact outside.sound sound

/-- What happens elsewhere leads to a world that the earlier one precedes. -/
theorem precedes (elsewhere : Elsewhere task world after) : world.Precedes after := by
  rcases elsewhere with ⟨other, -, deed⟩ | outside
  · exact deed.precedes
  · exact outside.precedes

/-- Who is away from a gate stays so, whatever happens elsewhere. -/
theorem isAway (elsewhere : Elsewhere task world after) (h : (world.manager id).IsAway task) :
    (after.manager id).IsAway task := by
  rcases elsewhere with ⟨other, hne, deed⟩ | outside
  · exact (deed.managers id).isAway hne.symm h
  · rwa [outside.manager_eq]

/-- A task that awaits no call awaits none, whatever happens elsewhere. -/
theorem awaitsNone (elsewhere : Elsewhere task world after)
    (h : (world.manager id).AwaitsNone task) : (after.manager id).AwaitsNone task := by
  rcases elsewhere with ⟨other, hne, deed⟩ | outside
  · exact (deed.managers id).awaitsNone hne.symm h
  · rwa [outside.manager_eq]

/-- The calls of a task stay as they are, whatever happens elsewhere. -/
theorem getElem?_calls (elsewhere : Elsewhere task world after) {n : Nat} {issue : IssueCall}
    (hcaller : issue.caller.task = task) (h : (world.manager id).calls[n]? = some issue) :
    (after.manager id).calls[n]? = some issue := by
  rcases elsewhere with ⟨other, hne, deed⟩ | outside
  · exact (deed.managers id).getElem?_calls (by rw [hcaller]; exact hne.symm) h
  · rwa [outside.manager_eq]

/-- Whoever is inside a manager's gate stays there, whatever happens elsewhere. -/
theorem manager_holder (elsewhere : Elsewhere task world after) {call : RefreshCall}
    (hcall : call.task = task) (h : (world.manager id).gate.holder = some call) :
    (after.manager id).gate.holder = some call := by
  rcases elsewhere with ⟨other, hne, deed⟩ | outside
  · exact (deed.managers id).move.holder_kept (by rw [hcall]; exact hne.symm) h
  · rwa [outside.manager_eq]

/-- Whoever waits at a manager's gate still does, or has been let in. -/
theorem manager_queue (elsewhere : Elsewhere task world after) {call : RefreshCall}
    (hcall : call.task = task) (h : call ∈ (world.manager id).gate.queue) :
    call ∈ (after.manager id).gate.queue ∨ (after.manager id).gate.holder = some call := by
  rcases elsewhere with ⟨other, hne, deed⟩ | outside
  · exact (deed.managers id).move.queue_kept (by rw [hcall]; exact hne.symm) h
  · rw [outside.manager_eq]
    exact .inl h

/-- Nobody becomes a caller of a cache by what happens elsewhere. -/
theorem cache_callers (elsewhere : Elsewhere task world after)
    (h : task ∉ (world.cache id).gate.callers) : task ∉ (after.cache id).gate.callers := by
  rcases elsewhere with ⟨other, hne, deed⟩ | outside
  · exact fun hmem => h ((deed.caches id).move.callers_of hne.symm hmem)
  · rwa [outside.cache_eq]

/-- Whoever is inside a cache's gate stays there, whatever happens elsewhere. -/
theorem cache_holder (elsewhere : Elsewhere task world after)
    (h : (world.cache id).gate.holder = some task) : (after.cache id).gate.holder = some task := by
  rcases elsewhere with ⟨other, hne, deed⟩ | outside
  · exact (deed.caches id).move.holder_kept hne.symm h
  · rwa [outside.cache_eq]

/-- Whoever waits at a cache's gate still does, or has been let in. -/
theorem cache_queue (elsewhere : Elsewhere task world after)
    (h : task ∈ (world.cache id).gate.queue) :
    task ∈ (after.cache id).gate.queue ∨ (after.cache id).gate.holder = some task := by
  rcases elsewhere with ⟨other, hne, deed⟩ | outside
  · exact (deed.caches id).move.queue_kept hne.symm h
  · rw [outside.cache_eq]
    exact .inl h

/-- How a task stands at the gates does not change through what happens elsewhere. -/
theorem standing (elsewhere : Elsewhere task world after) {held : List Nat} {spot : Option Place}
    (h : world.Standing task held spot) : after.Standing task held spot where
  sound := elsewhere.sound h.sound
  managers id hid := elsewhere.isAway (h.managers id hid)
  caches id hspot hheld := elsewhere.cache_callers (h.caches id hspot hheld)
  inside id hid := elsewhere.cache_holder (h.inside id hid)

end Elsewhere

end World

end CloudSession
