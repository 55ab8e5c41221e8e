import CloudSession.Proofs.Activity.Territory
import CloudSession.Proofs.Interleaving.Reach
import CloudSession.Proofs.Interleaving.Scene

/-!
# Callers of a cache

A caller of a cache looks at what is cached once it is inside the gate, decides what to do, and
carries that out: it leaves with what is cached, or retrieves, whatever the provider is, and settles.
Its stage can be told from the strides that it has done so far.
-/

namespace CloudSession

namespace CachedProvider

variable (cached : CachedProvider)

/-- A caller inside the gate looks at what is cached, and decides. -/
def lookInside (task : TaskId) : Activity (TaskId × CredentialsCache × CredentialsCache.Decision) := do
  let world ← Activity.world
  let (cache, decision) ← Activity.check
    ((world.cache cached.cache).decide (cached.inner.isExpired world))
  return (task, cache, decision)

/-- A caller at the gate waits until it is let in. -/
def awaitEntry (task : TaskId) :
    Activity (TaskId × CredentialsCache × CredentialsCache.Decision) := do
  if ((← Activity.world).cache cached.cache).gate.holder ≠ some task then
    Activity.wait
  cached.lookInside task

/-- A caller comes to the gate, and decides what to do inside. -/
def look : Activity (TaskId × CredentialsCache × CredentialsCache.Decision) := do
  let task ← Activity.me
  Activity.modify fun world => world.alterCache cached.cache (·.arrive task)
  cached.awaitEntry task

/-- A caller that has retrieved settles. -/
def settle (task : TaskId) (forced : Bool) (result : Retrieved) : Activity Retrieved := do
  alterCacheAndWake cached.cache fun cache => (cache.settle forced result).leave task
  return result

/-- A caller carries out what it has decided. -/
def carryOut (task : TaskId) : CredentialsCache.Decision → Activity Retrieved
  | .serve credentials => do
    alterCacheAndWake cached.cache (·.leave task)
    return .ok credentials
  | .retrieve forced => cached.inner.retrieve >>= cached.settle task forced

/-- A caller that has decided what to do takes note of an expiry by hand, and carries it out. -/
def follow (decided : TaskId × CredentialsCache × CredentialsCache.Decision) :
    Activity Retrieved := do
  Activity.modify fun world => world.alterCache cached.cache fun _ => decided.2.1
  cached.carryOut decided.1 decided.2.2

/-- To look inside and follow the decision is to serve what is cached or to retrieve. -/
theorem lookInside_follow (task : TaskId) :
    cached.lookInside task >>= cached.follow =
      serveOrRetrieve cached.cache task (fun world => cached.inner.isExpired world)
        cached.inner.retrieve := by
  refine congrArg Activity.read (funext fun world => ?_)
  change ((Activity.check ((world.cache cached.cache).decide (cached.inner.isExpired world)) >>=
    fun decided => pure (task, decided.1, decided.2)) >>= cached.follow) = _
  rw [Activity.bind_assoc]
  refine congrArg (Activity.bind _) (funext fun decided => ?_)
  obtain ⟨cache, decision⟩ := decided
  cases decision <;> rfl

/-- A caller of the cache looks, and follows up on what it has decided. -/
theorem get_eq : cached.get = cached.look >>= cached.follow := by
  have hentry (task : TaskId) (world : World) :
      (do if (world.cache cached.cache).gate.holder ≠ some task then Activity.wait
          serveOrRetrieve cached.cache task (fun world => cached.inner.isExpired world)
            cached.inner.retrieve) =
        (do if (world.cache cached.cache).gate.holder ≠ some task then Activity.wait
            cached.lookInside task) >>= cached.follow := by
    rw [← lookInside_follow]
    split <;> rfl
  refine congrArg Activity.self (funext fun task => congrArg Activity.read (funext fun world => ?_))
  exact congrArg (Activity.write _) (congrArg Activity.read (funext fun later => hentry task later))

variable {cached} {task : TaskId} {world : World}

/-- To look inside leads to what the cache decides, and leaves the world alone. -/
theorem stride_lookInside {cache : CredentialsCache} {decision : CredentialsCache.Decision}
    (h : (world.cache cached.cache).decide (cached.inner.isExpired world) = .ok (cache, decision)) :
    (cached.lookInside task).stride task world = (.finished (task, cache, decision), world) := by
  change (Activity.check _ >>= _).stride task world = _
  rw [h]
  rfl

/-- To look inside fails if the expiry cannot be told. -/
theorem stride_lookInside_of_error {fault : Overflow}
    (h : (world.cache cached.cache).decide (cached.inner.isExpired world) = .error fault) :
    (cached.lookInside task).stride task world = (.failed fault, world) := by
  change (Activity.check _ >>= _).stride task world = _
  rw [h]
  rfl

/-- A caller at the gate that has its turn has been let in, or waits to be let in. -/
theorem stride_awaitEntry (cached : CachedProvider) (task : TaskId) (world : World) :
    (cached.awaitEntry task).stride task world =
      if (world.cache cached.cache).gate.holder = some task then
        (cached.lookInside task).stride task world
      else (.waiting (cached.lookInside task), world) := by
  change (if _ then _ else _ : Activity _).stride task world = _
  by_cases hholder : (world.cache cached.cache).gate.holder = some task
  · simp only [hholder, ne_eq, not_true, if_false, if_true]
  · simp only [hholder, ne_eq, not_false_eq_true, if_false, if_true]
    rfl

end CachedProvider

/-- A caller that goes away from the gate does so with one stride, and then has the result. -/
theorem Activity.exists_stride_alterCacheAndWake (c : Nat) (f : CredentialsCache → CredentialsCache)
    (result : Retrieved) (me : TaskId) (world : World) :
    ∃ rest : Activity Retrieved,
      (alterCacheAndWake c f >>= fun _ => pure result).stride me world =
        (.waiting rest, world.alterCache c fun _ => f (world.cache c)) ∧
      ∀ later, rest.stride me later = (.finished result, later) := by
  unfold alterCacheAndWake
  refine ⟨_, rfl, fun later => ?_⟩
  split
  · cases (f (world.cache c)).gate.holder <;> rfl
  · rfl

namespace Interleaving

variable {cached : CachedProvider}

/-- After a moment, a caller comes to the end of its look at what is cached, and decides what to
do. -/
def Decides (run : Interleaving cached) (task : TaskId) (d : Nat)
    (decision : CredentialsCache.Decision) : Prop :=
  ∃ m cache, run.event m = .call task ∧
    run.Yields task (m + 1) cached.look d (task, cache, decision)

/-- What a caller has got in the end: what it has decided to take, or what it has retrieved. -/
inductive Obtains (run : Interleaving cached) (task : TaskId) (n : Nat) : Retrieved → Prop
  | served {d : Nat} {credentials : Credentials} : d < n →
      run.Decides task d (.serve credentials) → Obtains run task n (.ok credentials)
  | retrieved {d s : Nat} {forced : Bool} {result : Retrieved} : s < n →
      run.Decides task d (.retrieve forced) →
      run.Yields task (d + 1) cached.inner.retrieve s result → Obtains run task n result

/-- The stage of a caller at a moment, as its strides tell. A caller that breaks down stays where it
is. -/
inductive IsStage (run : Interleaving cached) (n : Nat) (task : TaskId) : CacheStage → Prop
  | away : (run.moment n).callers task = none → IsStage run n task .away
  | called {m : Nat} : run.event m = .call task →
      run.Reaches task (m + 1) cached.look n cached.look →
      (run.moment n).callers task = some (.waiting cached.get) → IsStage run n task .away
  | atGate {m : Nat} {rest : Activity (TaskId × CredentialsCache × CredentialsCache.Decision)} :
      run.event m = .call task → run.Reaches task (m + 1) cached.look n rest →
      (rest = cached.awaitEntry task ∨ rest = cached.lookInside task) →
      (run.moment n).callers task = some (.waiting (rest >>= cached.follow)) →
      IsStage run n task .atGate
  | serving {d : Nat} {credentials : Credentials} : run.Decides task d (.serve credentials) →
      d < n → (run.moment n).callers task =
        some (.waiting (cached.carryOut task (.serve credentials))) →
      IsStage run n task (.decided (.serve credentials))
  | retrieving {d : Nat} {forced : Bool} {rest : Activity Retrieved} :
      run.Decides task d (.retrieve forced) →
      run.Reaches task (d + 1) cached.inner.retrieve n rest →
      (run.moment n).callers task = some (.waiting (rest >>= cached.settle task forced)) →
      IsStage run n task (.decided (.retrieve forced))
  | broken {stage : CacheStage} {fault : Overflow} : stage.IsPresent →
      (run.moment n).callers task = some (.failed fault) → IsStage run n task stage
  | leaving {rest : Activity Retrieved} {result : Retrieved} : run.Obtains task n result →
      (run.moment n).callers task = some (.waiting rest) →
      (∀ world, rest.stride task world = (.finished result, world)) →
      IsStage run n task (.gone result)
  | gone {result : Retrieved} : run.Obtains task n result →
      (run.moment n).callers task = some (.finished result) → IsStage run n task (.gone result)

/-- What a stride of a caller does. -/
inductive Moves (run : Interleaving cached) (n : Nat) (task : TaskId) :
    CacheStage → CacheStage → Prop
  | arrive : (run.moment (n + 1)).world =
        (run.moment n).world.alterCache cached.cache (·.arrive task) →
      Moves run n task .away .atGate
  | pause {stage : CacheStage} : (run.moment (n + 1)).world = (run.moment n).world →
      Moves run n task stage stage
  | decide {cache : CredentialsCache} {decision : CredentialsCache.Decision} :
      run.Decides task n decision →
      (run.cache n).decide (cached.inner.isExpired (run.moment n).world) = .ok (cache, decision) →
      (run.moment (n + 1)).world =
        (run.moment n).world.alterCache cached.cache (fun _ => cache) →
      Moves run n task .atGate (.decided decision)
  | serve {credentials : Credentials} : (run.moment (n + 1)).world =
        (run.moment n).world.alterCache cached.cache (fun _ => (run.cache n).leave task) →
      Moves run n task (.decided (.serve credentials)) (.gone (.ok credentials))
  | retrieve {d : Nat} {forced : Bool} {rest next : Activity Retrieved} :
      run.Decides task d (.retrieve forced) →
      run.Reaches task (d + 1) cached.inner.retrieve n rest →
      rest.stride task (run.moment n).world = (.waiting next, (run.moment (n + 1)).world) →
      Moves run n task (.decided (.retrieve forced)) (.decided (.retrieve forced))
  | settle {d : Nat} {forced : Bool} {result : Retrieved} :
      run.Decides task d (.retrieve forced) →
      run.Yields task (d + 1) cached.inner.retrieve n result →
      (run.moment (n + 1)).world = (run.moment n).world.alterCache cached.cache
        (fun _ => ((run.cache n).settle forced result).leave task) →
      Moves run n task (.decided (.retrieve forced)) (.gone result)

variable {run : Interleaving cached} {task : TaskId} {n : Nat} {stage : CacheStage}

/-- A caller that has obtained something keeps it. -/
theorem Obtains.succ {result : Retrieved} (h : run.Obtains task n result) :
    run.Obtains task (n + 1) result := by
  cases h with
  | served hdn hdecides => exact .served (Nat.lt_succ_of_lt hdn) hdecides
  | retrieved hsn hdecides hyields => exact .retrieved (Nat.lt_succ_of_lt hsn) hdecides hyields

namespace IsStage

/-- A caller that does not go on stays at its stage. -/
theorem of_other (isStage : run.IsStage n task stage) (hevent : run.event n ≠ .stride task) :
    run.IsStage (n + 1) task stage := by
  have hkept {turn : Turn Retrieved} (h : (run.moment n).callers task = some turn) :=
    callers_of_other h hevent
  cases isStage with
  | away hnone =>
    by_cases hcall : run.event n = .call task
    · refine .called hcall .begin ?_
      have hnext := run.next n
      rw [hcall] at hnext
      generalize run.moment (n + 1) = after at hnext
      cases hnext with
      | call => simp [Snapshot.call]
    · refine .away ?_
      have hnext := run.next n
      generalize run.event n = event at hnext hevent hcall
      generalize run.moment (n + 1) = after at hnext
      cases hnext with
      | outside => exact hnone
      | @call other _ =>
        have hne : task ≠ other := by
          rintro rfl
          exact hcall rfl
        simpa [Snapshot.call, hne] using hnone
      | expiry => exact hnone
      | @stride other _ _ _ =>
        have hne : task ≠ other := by
          rintro rfl
          exact hevent rfl
        simpa [Snapshot.stride, hne] using hnone
  | called hcall hlook hcaller => exact .called hcall (hlook.other hevent) (hkept hcaller)
  | atGate hcall hlook hrest hcaller =>
    exact .atGate hcall (hlook.other hevent) hrest (hkept hcaller)
  | serving hdecides hdn hcaller => exact .serving hdecides (Nat.lt_succ_of_lt hdn) (hkept hcaller)
  | retrieving hdecides hrest hcaller =>
    exact .retrieving hdecides (hrest.other hevent) (hkept hcaller)
  | broken hpresent hcaller => exact .broken hpresent (hkept hcaller)
  | leaving hobtains hcaller hrest => exact .leaving hobtains.succ (hkept hcaller) hrest
  | gone hobtains hcaller => exact .gone hobtains.succ (hkept hcaller)

/-- A caller that has been let in looks at what is cached and decides what to do, unless it breaks
down. -/
theorem moves_of_inside {m : Nat}
    {rest : Activity (TaskId × CredentialsCache × CredentialsCache.Decision)}
    (hcall : run.event m = .call task) (hlook : run.Reaches task (m + 1) cached.look n rest)
    (hinside : rest.stride task (run.moment n).world =
      (cached.lookInside task).stride task (run.moment n).world)
    (hcaller : (run.moment n).callers task = some (.waiting (rest >>= cached.follow)))
    (hevent : run.event n = .stride task) :
    ∃ later, run.Moves n task .atGate later ∧ run.IsStage (n + 1) task later := by
  obtain ⟨-, hmoment⟩ := run.moment_of_stride hcaller hevent
  cases hdecide : (run.cache n).decide (cached.inner.isExpired (run.moment n).world) with
  | error fault =>
    rw [CachedProvider.stride_lookInside_of_error hdecide] at hinside
    have hstride := Activity.stride_bind_of_failed hinside cached.follow
    rw [Snapshot.stride, hstride] at hmoment
    have hcallers : (run.moment (n + 1)).callers task = some (.failed fault) := by simp [hmoment]
    exact ⟨.atGate, .pause (by rw [hmoment]), .broken trivial hcallers⟩
  | ok decided =>
    obtain ⟨cache, decision⟩ := decided
    rw [CachedProvider.stride_lookInside hdecide] at hinside
    have hdecides : run.Decides task n decision := ⟨m, cache, hcall, hevent, rest, hlook, hinside⟩
    have hstride := Activity.stride_bind_of_finished hinside cached.follow
    rw [Snapshot.stride, hstride] at hmoment
    have hworld : (run.moment (n + 1)).world =
        (run.moment n).world.alterCache cached.cache fun _ => cache := by
      rw [hmoment]
      rfl
    have hcallers : (run.moment (n + 1)).callers task =
        some (.waiting (cached.carryOut task decision)) := by
      rw [hmoment]
      exact Function.update_self ..
    refine ⟨.decided decision, .decide hdecides hdecide hworld, ?_⟩
    cases decision with
    | serve credentials => exact .serving hdecides (Nat.lt_succ_self n) hcallers
    | retrieve forced => exact .retrieving hdecides .begin hcallers

/-- A caller that retrieves goes on with that, settles, or breaks down. -/
theorem moves_of_retrieving {d : Nat} {forced : Bool} {rest : Activity Retrieved}
    (hdecides : run.Decides task d (.retrieve forced))
    (hrest : run.Reaches task (d + 1) cached.inner.retrieve n rest)
    (hcaller : (run.moment n).callers task =
      some (.waiting (rest >>= cached.settle task forced)))
    (hevent : run.event n = .stride task) :
    ∃ later, run.Moves n task (.decided (.retrieve forced)) later ∧
      run.IsStage (n + 1) task later := by
  obtain ⟨-, hmoment⟩ := run.moment_of_stride hcaller hevent
  rcases rest.stride_cases task (run.moment n).world with ⟨result, hstride⟩ | ⟨fault, hstride⟩ |
      ⟨next, after, hstride⟩
  · have hyields : run.Yields task (d + 1) cached.inner.retrieve n result :=
      ⟨hevent, rest, hrest, hstride⟩
    obtain ⟨last, hsettle, hlast⟩ := Activity.exists_stride_alterCacheAndWake cached.cache
      (fun cache => (cache.settle forced result).leave task) result task (run.moment n).world
    rw [Snapshot.stride, Activity.stride_bind_of_finished hstride, CachedProvider.settle,
      hsettle] at hmoment
    refine ⟨.gone result, .settle hdecides hyields (by rw [hmoment]; rfl), ?_⟩
    refine .leaving (.retrieved (Nat.lt_succ_self n) hdecides hyields) ?_ hlast
    simp [hmoment]
  · rw [Snapshot.stride, Activity.stride_bind_of_failed hstride] at hmoment
    have hcallers : (run.moment (n + 1)).callers task = some (.failed fault) := by simp [hmoment]
    exact ⟨_, .pause (by rw [hmoment]), .broken trivial hcallers⟩
  · rw [Snapshot.stride, Activity.stride_bind_of_waiting hstride] at hmoment
    have hworld : after = (run.moment (n + 1)).world := by rw [hmoment]
    rw [hworld] at hstride
    refine ⟨_, .retrieve hdecides hrest hstride, ?_⟩
    refine .retrieving hdecides (hrest.stride hevent hstride) ?_
    simp [hmoment]

/-- A caller that goes on moves to its next stage. -/
theorem moves (isStage : run.IsStage n task stage) (hevent : run.event n = .stride task) :
    ∃ later, run.Moves n task stage later ∧ run.IsStage (n + 1) task later := by
  obtain ⟨next, hnext, -, hmoment⟩ := run.exists_rest hevent
  have hfrom {turn : Turn Retrieved} (h : (run.moment n).callers task = some turn) :
      .waiting next = turn := Option.some.inj (hnext.symm.trans h)
  cases isStage with
  | away hnone =>
    rw [hnone] at hnext
    cases hnext
  | called hcall hlook hcaller =>
    obtain rfl := Turn.waiting.inj (hfrom hcaller)
    have hstride : cached.look.stride task (run.moment n).world =
        (.waiting (cached.awaitEntry task),
          (run.moment n).world.alterCache cached.cache (·.arrive task)) := rfl
    rw [Snapshot.stride, CachedProvider.get_eq,
      Activity.stride_bind_of_waiting hstride] at hmoment
    have hworld : (run.moment (n + 1)).world =
        (run.moment n).world.alterCache cached.cache (·.arrive task) := by rw [hmoment]
    rw [← hworld] at hstride
    refine ⟨.atGate, .arrive hworld, .atGate hcall (hlook.stride hevent hstride) (.inl rfl) ?_⟩
    simp [hmoment]
  | @atGate m rest hcall hlook hrest hcaller =>
    rcases hrest with rfl | rfl
    · by_cases hholder : ((run.moment n).world.cache cached.cache).gate.holder = some task
      · have hstride := cached.stride_awaitEntry task (run.moment n).world
        rw [if_pos hholder] at hstride
        exact moves_of_inside hcall hlook hstride hcaller hevent
      · have hstride := cached.stride_awaitEntry task (run.moment n).world
        rw [if_neg hholder] at hstride
        obtain rfl := Turn.waiting.inj (hfrom hcaller)
        rw [Snapshot.stride, Activity.stride_bind_of_waiting hstride] at hmoment
        have hworld : (run.moment n).world = (run.moment (n + 1)).world := by rw [hmoment]
        rw [hworld] at hstride
        refine ⟨.atGate, .pause hworld.symm, .atGate hcall (hlook.stride hevent ?_) (.inr rfl) ?_⟩
        · rw [hworld, hstride]
        · simp [hmoment]
    · exact moves_of_inside hcall hlook rfl hcaller hevent
  | @serving d credentials hdecides hdn hcaller =>
    obtain rfl := Turn.waiting.inj (hfrom hcaller)
    obtain ⟨last, hserve, hlast⟩ := Activity.exists_stride_alterCacheAndWake cached.cache
      (·.leave task) (.ok credentials) task (run.moment n).world
    rw [Snapshot.stride, CachedProvider.carryOut, hserve] at hmoment
    refine ⟨_, .serve (by rw [hmoment]; rfl), ?_⟩
    refine .leaving (.served (Nat.lt_succ_of_lt hdn) hdecides) ?_ hlast
    simp [hmoment]
  | retrieving hdecides hrest hcaller => exact moves_of_retrieving hdecides hrest hcaller hevent
  | broken _ hcaller => cases hfrom hcaller
  | leaving hobtains hcaller hrest =>
    obtain rfl := Turn.waiting.inj (hfrom hcaller)
    rw [Snapshot.stride, hrest] at hmoment
    refine ⟨_, .pause (by rw [hmoment]), .gone hobtains.succ ?_⟩
    simp [hmoment]
  | gone _ hcaller => cases hfrom hcaller

end IsStage

end Interleaving

end CloudSession
