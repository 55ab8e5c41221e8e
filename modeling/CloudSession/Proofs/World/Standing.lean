import CloudSession.Proofs.World.Deed

/-!
# How a task stands at the gates

A task that stands away from all gates may turn to one place. There it changes one token manager or
one cache, which is a deed, and what it does leaves its standing elsewhere as it was. Whoever is let
in by a task that goes away waits nowhere any more.
-/

namespace CloudSession.World

variable {world aside after : World} {me : RefreshCall} {task : TaskId} {held : List Nat}
  {id : ManagerId} {c : Nat} {spot : Option Place}

/-- What changes is noticed neither at the gates nor by the clock. -/
structure Beside (world after : World) : Prop where
  manager : ∀ id, after.manager id = world.manager id
  cache : ∀ id, after.cache id = world.cache id
  managerCount : after.managers.length = world.managers.length
  cacheCount : after.caches.length = world.caches.length
  clock : after.now = world.now
  elapsed : after.elapsed = world.elapsed

/-- No change is one beside the managers and caches. -/
theorem Beside.refl (world : World) : world.Beside world :=
  ⟨fun _ => rfl, fun _ => rfl, rfl, rfl, rfl, rfl⟩

/-- A change beside the managers and caches leaves the queues alone. -/
theorem Beside.queueAt_eq (beside : world.Beside after) (place : Place) :
    after.queueAt place = world.queueAt place := by
  cases place <;> simp [queueAt, beside.manager, beside.cache]

/-- In a sound world, a change beside the managers and caches is a deed. -/
theorem Beside.deed (beside : world.Beside after) (sound : world.Sound) : world.Deed me after where
  managers id := by
    rw [beside.manager]
    exact .rest _
  caches id := by
    rw [beside.cache]
    exact .rest _
  once place other hplace hother :=
    sound.once me.task place other (beside.queueAt_eq place ▸ hplace)
      (beside.queueAt_eq other ▸ hother)
  managerCount := beside.managerCount
  cacheCount := beside.cacheCount
  clock := beside.clock
  elapsed := beside.elapsed

/-- A warning is noticed nowhere else. -/
theorem beside_warn (world : World) (warning : Warning) : world.Beside (world.warn warning) := by
  unfold warn
  split
  · exact .refl world
  · exact ⟨fun _ => rfl, fun _ => rfl, rfl, rfl, rfl, rfl⟩

/-- Who uses a manager is not noticed at its gate. -/
theorem beside_modify (world : World) (id : ManagerId) {f : Managed → Managed}
    (h : ∀ entry, (f entry).manager = entry.manager) :
    world.Beside { world with managers := world.managers.modify id f } where
  manager other := manager_modify world id other h
  cache _ := rfl
  managerCount := by simp
  cacheCount := rfl
  clock := rfl
  elapsed := rfl

/-- To let go of a manager is a change beside what managers and caches know. -/
theorem beside_drop (world : World) (id : ManagerId) : world.Beside (world.drop id) :=
  beside_modify world id fun _ => rfl

/-- To engage a manager is a change beside what managers and caches know. -/
theorem beside_engage (world : World) (id : ManagerId) : world.Beside (world.engage id) :=
  beside_modify world id fun _ => rfl

/-- To let a manager go is a change beside what managers and caches know. -/
theorem beside_disengage (world : World) (id : ManagerId) : world.Beside (world.disengage id) :=
  beside_modify world id fun _ => rfl

/-- A request for a token goes outside. -/
theorem beside_exchange (world : World) (request : Except TokenError Http.Request) :
    world.Beside (world.exchange request).1 := by
  cases request with
  | error error => exact .refl world
  | ok request => exact ⟨fun _ => rfl, fun _ => rfl, rfl, rfl, rfl, rfl⟩

/-- The answer to a request for a token comes from outside. -/
theorem beside_exchange_arrive (world later : World) (request : Except TokenError Http.Request) :
    later.Beside ((world.exchange request).2.arrive later).1 := by
  cases request with
  | error error => exact .refl later
  | ok request => exact ⟨fun _ => rfl, fun _ => rfl, rfl, rfl, rfl, rfl⟩

/-- A token source is asked outside. -/
theorem beside_issue (world : World) (issuer : Issuer) : world.Beside (world.issue issuer).1 := by
  cases issuer with
  | absent => exact .refl world
  | apiKey issuer => exact beside_exchange world _
  | scripted id => exact ⟨fun _ => rfl, fun _ => rfl, rfl, rfl, rfl, rfl⟩

/-- The answer of a token source arrives from outside. -/
theorem beside_arrive (world later : World) (issuer : Issuer) :
    later.Beside ((world.issue issuer).2.arrive later).1 := by
  cases issuer with
  | absent => exact .refl later
  | apiKey issuer => exact beside_exchange_arrive world later _
  | scripted id => exact .refl later

/-- A task may do what is not noticed at the gate wherever it is. -/
theorem Sound.deed_quiet (sound : world.Sound) {f : TokenManager → TokenManager}
    (deed : (world.manager id).Deed me world.now world.elapsed (f (world.manager id)))
    (hgate : (f (world.manager id)).gate = (world.manager id).gate) :
    world.Deed me (world.alterManager id f) where
  managers other := by
    rw [manager_alterManager]
    split
    · next h =>
      obtain ⟨rfl, -⟩ := h
      exact deed
    · exact .rest _
  caches other := .rest _
  once place other hplace hother := by
    have hqueue (place : Place) : (world.alterManager id f).queueAt place = world.queueAt place := by
      cases place with
      | cache other => rfl
      | manager other =>
        rw [queueAt, manager_alterManager]
        split
        · next h =>
          obtain ⟨rfl, -⟩ := h
          rw [hgate, queueAt]
        · rfl
    exact sound.once _ _ _ (hqueue place ▸ hplace) (hqueue other ▸ hother)
  managerCount := by simp [alterManager]
  cacheCount := rfl
  clock := rfl
  elapsed := rfl

/-- A task may break off wherever it is. -/
theorem Sound.deed_abandon (sound : world.Sound) (me : RefreshCall) (id : ManagerId) :
    world.Deed me (world.alterManager id fun _ => (world.manager id).abandon me.task) where
  managers other := by
    rw [manager_alterManager]
    split
    · next h =>
      obtain ⟨rfl, -⟩ := h
      exact .abandon _
    · exact .rest _
  caches other := .rest _
  once place other hplace hother := by
    have hqueue (place : Place) (h : me.task ∈
        (world.alterManager id fun _ => (world.manager id).abandon me.task).queueAt place) :
        me.task ∈ world.queueAt place := by
      cases place with
      | cache other => exact h
      | manager other =>
        rw [queueAt, manager_alterManager] at h
        split at h
        · next hsame =>
          obtain ⟨rfl, -⟩ := hsame
          obtain ⟨heq, -⟩ | ⟨call, -, -, heq⟩ := TokenManager.abandon_cases (world.manager id) me.task
          · rwa [heq] at h
          · rw [heq] at h
            exact ((Gate.leave_queue_sublist _ call).map _).subset h
        · exact h
    exact sound.once _ _ _ (hqueue place hplace) (hqueue other hother)
  managerCount := by simp [alterManager]
  cacheCount := rfl
  clock := rfl
  elapsed := rfl

/-- A task may go away from the gate of a cache wherever it is. -/
theorem Sound.deed_leaveCache (sound : world.Sound) (me : RefreshCall) (c : Nat) :
    world.Deed me (world.alterCache c fun _ => (world.cache c).leave me.task) where
  managers other := .rest _
  caches other := by
    rw [cache_alterCache]
    split
    · next h =>
      obtain ⟨rfl, -⟩ := h
      exact .leave _
    · exact .rest _
  once place other hplace hother := by
    have hqueue (place : Place) (h : me.task ∈
        (world.alterCache c fun _ => (world.cache c).leave me.task).queueAt place) :
        me.task ∈ world.queueAt place := by
      cases place with
      | manager other => exact h
      | cache other =>
        rw [queueAt, cache_alterCache] at h
        split at h
        · next hsame =>
          obtain ⟨rfl, -⟩ := hsame
          exact (Gate.leave_queue_sublist _ me.task).subset h
        · exact h
    exact sound.once _ _ _ (hqueue place hplace) (hqueue other hother)
  managerCount := rfl
  cacheCount := by simp [alterCache]
  clock := rfl
  elapsed := rfl

namespace Standing

/-- A task waits at most where it stands. -/
theorem eq_spot_of_mem_queueAt (standing : world.Standing task held spot) {place : Place}
    (h : task ∈ world.queueAt place) : spot = some place := by
  by_contra hspot
  cases place with
  | manager id =>
    obtain ⟨call, hcall, htask⟩ := List.mem_map.mp h
    exact standing.managers id hspot call (Gate.mem_callers.mpr (.inr hcall)) htask
  | cache id =>
    by_cases hheld : id ∈ held
    · -- whoever is inside does not wait as well
      have hcallers : (world.cache id).gate.callers = task :: (world.cache id).gate.queue := by
        simp [Gate.callers, standing.inside id hheld]
      have hnodup := standing.sound.distinct id
      rw [hcallers] at hnodup
      exact (List.nodup_cons.mp hnodup).1 h
    · exact standing.caches id hspot hheld (Gate.mem_callers.mpr (.inr h))

/-- Whoever stands nowhere waits nowhere. -/
theorem not_isWaiting (standing : world.Standing task held none) : ¬ world.IsWaiting task := by
  rintro ⟨place, hplace⟩
  cases standing.eq_spot_of_mem_queueAt hplace

/-- A task that is inside the gate where it stands does not wait. -/
theorem not_isWaiting_of_holder (standing : world.Standing task held (some (.manager id)))
    {call : RefreshCall} (hcall : call.task = task)
    (hholder : (world.manager id).gate.holder = some call) : ¬ world.IsWaiting task := by
  rintro ⟨place, hplace⟩
  cases standing.eq_spot_of_mem_queueAt hplace
  have hcallers : (world.manager id).gate.callers = call :: (world.manager id).gate.queue := by
    simp [Gate.callers, hholder]
  have hdistinct := (standing.sound.coherent id).distinct
  rw [hcallers, List.map_cons, hcall] at hdistinct
  exact (List.nodup_cons.mp hdistinct).1 hplace

/-- A task that is away from all gates may turn to any place. -/
theorem toward (standing : world.Standing task held none) (place : Place) :
    world.Standing task held (some place) where
  sound := standing.sound
  managers id _ := standing.managers id (by simp)
  caches id _ := standing.caches id (by simp)
  inside := standing.inside

/-- A task that has gone away from the gate of a manager is away from all. -/
theorem away (standing : world.Standing task held (some (.manager id)))
    (haway : (world.manager id).IsAway task) : world.Standing task held none where
  sound := standing.sound
  managers other _ := by
    by_cases heq : id = other
    · exact heq ▸ haway
    · exact standing.managers other (by simp [heq])
  caches other _ := standing.caches other (by simp)
  inside := standing.inside

/-- What a task does to the manager where it stands is a deed. -/
theorem deed_alterManager (standing : world.Standing me.task held (some (.manager id)))
    (beside : world.Beside aside) {f : TokenManager → TokenManager}
    (deed : (world.manager id).Deed me world.now world.elapsed (f (world.manager id))) :
    world.Deed me (aside.alterManager id f) where
  managers other := by
    rw [manager_alterManager]
    split
    · next h =>
      obtain ⟨rfl, -⟩ := h
      rwa [beside.manager]
    · rw [beside.manager]
      exact .rest _
  caches other := by
    rw [cache_alterManager, beside.cache]
    exact .rest _
  once place other hplace hother := by
    have hspot (place : Place) (h : me.task ∈ (aside.alterManager id f).queueAt place) :
        place = .manager id := by
      by_contra hne
      have hqueue : (aside.alterManager id f).queueAt place = world.queueAt place := by
        cases place with
        | manager other =>
          have hother : id ≠ other := fun heq => hne (by rw [heq])
          simp [queueAt, manager_alterManager, hother, beside.manager]
        | cache other => simp [queueAt, beside.cache]
      exact hne (Option.some.inj (standing.eq_spot_of_mem_queueAt (hqueue ▸ h))).symm
    rw [hspot place hplace, hspot other hother]
  managerCount := by simpa [alterManager] using beside.managerCount
  cacheCount := beside.cacheCount
  clock := beside.clock
  elapsed := beside.elapsed

/-- A task that has done something to the manager where it stands stands there still. -/
theorem alterManager (standing : world.Standing me.task held (some (.manager id)))
    (beside : world.Beside aside) {f : TokenManager → TokenManager}
    (deed : (world.manager id).Deed me world.now world.elapsed (f (world.manager id))) :
    (aside.alterManager id f).Standing me.task held (some (.manager id)) where
  sound := (standing.deed_alterManager beside deed).sound standing.sound
  managers other hother := by
    have hne : id ≠ other := fun heq => hother (by rw [heq])
    simpa [manager_alterManager, hne, beside.manager] using standing.managers other hother
  caches other := by
    simpa [beside.cache] using standing.caches other
  inside other := by
    simpa [beside.cache] using standing.inside other

/-- What a task does to the cache where it stands is a deed. -/
theorem deed_alterCache (standing : world.Standing me.task held (some (.cache c)))
    {f : CredentialsCache → CredentialsCache}
    (deed : (world.cache c).Deed me.task (f (world.cache c))) :
    world.Deed me (world.alterCache c f) where
  managers other := .rest _
  caches other := by
    rw [cache_alterCache]
    split
    · next h =>
      obtain ⟨rfl, -⟩ := h
      exact deed
    · exact .rest _
  once place other hplace hother := by
    have hspot (place : Place) (h : me.task ∈ (world.alterCache c f).queueAt place) :
        place = .cache c := by
      by_contra hne
      have hqueue : (world.alterCache c f).queueAt place = world.queueAt place := by
        cases place with
        | manager other => rfl
        | cache other =>
          have hother : c ≠ other := fun heq => hne (by rw [heq])
          simp [queueAt, cache_alterCache, hother]
      exact hne (Option.some.inj (standing.eq_spot_of_mem_queueAt (hqueue ▸ h))).symm
    rw [hspot place hplace, hspot other hother]
  managerCount := rfl
  cacheCount := by simp [World.alterCache]
  clock := rfl
  elapsed := rfl

/-- A task that has done something to the cache where it stands stands there still. -/
theorem alterCache (standing : world.Standing me.task held (some (.cache c))) (hheld : c ∉ held)
    {f : CredentialsCache → CredentialsCache}
    (deed : (world.cache c).Deed me.task (f (world.cache c))) :
    (world.alterCache c f).Standing me.task held (some (.cache c)) where
  sound := (standing.deed_alterCache deed).sound standing.sound
  managers other _ := standing.managers other (by simp)
  caches other hother := by
    have hne : c ≠ other := fun heq => hother (by rw [heq])
    simpa [cache_alterCache, hne] using standing.caches other hother
  inside other hmem := by
    have hne : c ≠ other := fun heq => hheld (heq ▸ hmem)
    simpa [cache_alterCache, hne] using standing.inside other hmem

/-- A task that is inside the gate of a cache may turn to other places. -/
theorem enter (standing : world.Standing task held (some (.cache c)))
    (hholder : (world.cache c).gate.holder = some task) : world.Standing task (c :: held) none where
  sound := standing.sound
  managers id _ := standing.managers id (by simp)
  caches id _ hid := by
    rw [List.mem_cons, not_or] at hid
    exact standing.caches id (by simpa using Ne.symm hid.1) hid.2
  inside id hid := by
    rcases List.mem_cons.mp hid with rfl | hmem
    · exact hholder
    · exact standing.inside id hmem

/-- A task that is inside the gate of a cache may turn to this cache. -/
theorem leaveInside (standing : world.Standing task (c :: held) none) :
    world.Standing task held (some (.cache c)) where
  sound := standing.sound
  managers id _ := standing.managers id (by simp)
  caches id hspot hid := by
    refine standing.caches id (by simp) ?_
    rw [List.mem_cons, not_or]
    exact ⟨fun heq => hspot (by rw [heq]), hid⟩
  inside id hid := standing.inside id (List.mem_cons_of_mem _ hid)

/-- A task that has gone away from the gate of a cache is away from all but those it holds. -/
theorem awayFromCache (standing : world.Standing task held (some (.cache c)))
    (haway : task ∉ (world.cache c).gate.callers) : world.Standing task held none where
  sound := standing.sound
  managers id _ := standing.managers id (by simp)
  caches id _ hid := by
    by_cases heq : c = id
    · exact heq ▸ haway
    · exact standing.caches id (by simp [heq]) hid
  inside := standing.inside

/-- A change besides leaves the standing as it was. -/
theorem beside (standing : world.Standing task held spot) (beside : world.Beside after) :
    after.Standing task held spot where
  sound :=
    have deed : world.Deed ⟨task, .renew⟩ after := beside.deed standing.sound
    deed.sound standing.sound
  managers id := beside.manager id ▸ standing.managers id
  caches id := beside.cache id ▸ standing.caches id
  inside id := beside.cache id ▸ standing.inside id

end Standing

/-- Whoever has been let in at the gate of a manager waits nowhere any more. -/
theorem Deed.not_isWaiting_of_admitted (deed : world.Deed me after) (sound : world.Sound)
    {call : RefreshCall} (hne : call.task ≠ me.task)
    (hbefore : (world.manager id).gate.holder ≠ some call)
    (hafter : (after.manager id).gate.holder = some call) : ¬ after.IsWaiting call.task := by
  rintro ⟨place, hplace⟩
  have hcaller : call ∈ (world.manager id).gate.callers :=
    (deed.managers id).move.callers_of hne (Gate.mem_callers.mpr (.inl hafter))
  have hqueue : call ∈ (world.manager id).gate.queue :=
    (Gate.mem_callers.mp hcaller).resolve_left hbefore
  have hthere : call.task ∈ world.queueAt (.manager id) := List.mem_map.mpr ⟨call, hqueue, rfl⟩
  obtain rfl := sound.once _ _ _ hthere (deed.mem_queueAt hne hplace)
  have hdistinct := ((deed.sound sound).coherent id).distinct
  have hcallers : (after.manager id).gate.callers = call :: (after.manager id).gate.queue := by
    simp [Gate.callers, hafter]
  rw [hcallers, List.map_cons] at hdistinct
  exact (List.nodup_cons.mp hdistinct).1 hplace

/-- Whoever has been let in at the gate of a cache waits nowhere any more. -/
theorem Deed.not_isWaiting_of_admitted_cache (deed : world.Deed me after) (sound : world.Sound)
    (hne : task ≠ me.task) (hbefore : (world.cache c).gate.holder ≠ some task)
    (hafter : (after.cache c).gate.holder = some task) : ¬ after.IsWaiting task := by
  rintro ⟨place, hplace⟩
  have hcaller : task ∈ (world.cache c).gate.callers :=
    (deed.caches c).move.callers_of hne (Gate.mem_callers.mpr (.inl hafter))
  have hthere : task ∈ world.queueAt (.cache c) :=
    (Gate.mem_callers.mp hcaller).resolve_left hbefore
  obtain rfl := sound.once _ _ _ hthere (deed.mem_queueAt hne hplace)
  have hdistinct := (deed.sound sound).distinct c
  have hcallers : (after.cache c).gate.callers = task :: (after.cache c).gate.queue := by
    simp [Gate.callers, hafter]
  rw [hcallers] at hdistinct
  exact (List.nodup_cons.mp hdistinct).1 hplace

end CloudSession.World
