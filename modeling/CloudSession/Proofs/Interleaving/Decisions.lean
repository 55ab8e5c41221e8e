import CloudSession.Proofs.Interleaving.Admission

/-!
# Decisions of callers

A caller of a cache comes once and decides once what to do, and then it carries that out and nothing
else. So at most one caller retrieves at a time, and it is inside the gate from its decision until it
has settled.
-/

namespace CloudSession.Interleaving

variable {cached : CachedProvider} {run : Interleaving cached} {task other : TaskId}
  {d k m n s : Nat} {forced : Bool} {decision : CredentialsCache.Decision} {result : Retrieved}

/-- A caller that works off two activities is at the second of them after the first. -/
theorem callers_of_reaches {α : Type} {activity rest : Activity α} {f : α → Activity Retrieved}
    (hcaller : (run.moment m).callers task = some (.waiting (activity >>= f)))
    (h : run.Reaches task m activity n rest) :
    (run.moment n).callers task = some (.waiting (rest >>= f)) := by
  induction h with
  | begin => exact hcaller
  | other _ hevent ih => exact callers_of_other ih hevent
  | stride _ hevent hnext ih =>
    obtain ⟨-, hmoment⟩ := run.moment_of_stride ih hevent
    rw [hmoment, Snapshot.stride, Activity.stride_bind_of_waiting hnext]
    exact Function.update_self ..

/-! ## Calls -/

/-- A call adds a caller that was not there before. -/
theorem callers_of_call (hcall : run.event m = .call task) :
    (run.moment m).callers task = none ∧
      (run.moment (m + 1)).callers task = some (.waiting cached.get) := by
  have hnext := run.next m
  rw [hcall] at hnext
  generalize run.moment (m + 1) = after at hnext
  cases hnext with
  | call hnone => exact ⟨hnone, by simp [Snapshot.call]⟩

/-- A caller that has come stays. -/
theorem exists_turn_of_le {turn : Turn Retrieved} (hcaller : (run.moment m).callers task = some turn)
    (hmn : m ≤ n) : ∃ later, (run.moment n).callers task = some later := by
  induction n, hmn using Nat.le_induction with
  | base => exact ⟨turn, hcaller⟩
  | succ n _ ih =>
    obtain ⟨later, hlater⟩ := ih
    by_cases hevent : run.event n = .stride task
    · obtain ⟨rest, -, -, hmoment⟩ := run.exists_rest hevent
      exact ⟨_, by rw [hmoment]; exact Function.update_self ..⟩
    · exact ⟨later, callers_of_other hlater hevent⟩

/-- Whoever has been called is there from then on. -/
theorem callers_ne_none_of_call (hcall : run.event m = .call task) (hmn : m < n) :
    (run.moment n).callers task ≠ none := by
  obtain ⟨turn, hturn⟩ := exists_turn_of_le (callers_of_call hcall).2 hmn
  rw [hturn]
  exact Option.some_ne_none turn

/-- A caller comes once. -/
theorem call_unique (hcall : run.event m = .call task) (hother : run.event n = .call task) :
    m = n := by
  rcases Nat.lt_trichotomy m n with hlt | heq | hlt
  · exact absurd (callers_of_call hother).1 (callers_ne_none_of_call hcall hlt)
  · exact heq
  · exact absurd (callers_of_call hcall).1 (callers_ne_none_of_call hother hlt)

/-! ## Decisions -/

/-- A caller decides once. -/
theorem Decides.unique (h : run.Decides task d decision) {last : CredentialsCache.Decision}
    (hlast : run.Decides task k last) : d = k ∧ decision = last := by
  obtain ⟨m, cache, hcall, hyields⟩ := h
  obtain ⟨n, later, hother, hends⟩ := hlast
  obtain rfl := call_unique hcall hother
  obtain ⟨hdk, hsame⟩ := hyields.unique hends
  exact ⟨hdk, (Prod.mk.inj (Prod.mk.inj hsame).2).2⟩

/-- A decision is made in a stride of its caller. -/
theorem Decides.event (h : run.Decides task d decision) : run.event d = .stride task := by
  obtain ⟨m, cache, -, hyields⟩ := h
  exact hyields.event

/-- A caller that has decided what to do carries that out. -/
theorem Decides.callers (h : run.Decides task d decision) :
    (run.moment (d + 1)).callers task = some (.waiting (cached.carryOut task decision)) := by
  obtain ⟨m, cache, hcall, hevent, rest, hlook, hends⟩ := h
  have hget := (callers_of_call hcall).2
  rw [CachedProvider.get_eq] at hget
  obtain ⟨-, hmoment⟩ := run.moment_of_stride (callers_of_reaches hget hlook) hevent
  rw [hmoment, Snapshot.stride, Activity.stride_bind_of_finished hends]
  exact Function.update_self ..

/-- A caller that retrieves settles after that. -/
theorem Decides.callers_of_reaches (h : run.Decides task d (.retrieve forced))
    {rest : Activity Retrieved} (hrest : run.Reaches task (d + 1) cached.inner.retrieve n rest) :
    (run.moment n).callers task = some (.waiting (rest >>= cached.settle task forced)) :=
  Interleaving.callers_of_reaches h.callers hrest

/-- A caller that has got something in the end had decided before. -/
theorem Obtains.exists_decides (h : run.Obtains task n result) :
    ∃ d < n, ∃ decision, run.Decides task d decision := by
  cases h with
  | served hdn hdecides => exact ⟨_, hdn, _, hdecides⟩
  | retrieved hsn hdecides hyields => exact ⟨_, Nat.lt_trans hyields.le hsn, _, hdecides⟩

/-- A caller that comes to its end has got something. -/
theorem obtains_of_returned (hreturned : run.Returned n task result) : run.Obtains task n result := by
  obtain ⟨stage, stages⟩ := run.exists_stages
  have isStage := stages.isStage n task
  rw [Returned] at hreturned
  generalize stage n task = now at isStage
  have hfrom {turn : Turn Retrieved} (h : (run.moment n).callers task = some turn) :
      .finished result = turn := Option.some.inj (hreturned.symm.trans h)
  cases isStage with
  | away hnone =>
    rw [hnone] at hreturned
    cases hreturned
  | gone hobtains hcaller =>
    obtain rfl := Turn.finished.inj (hfrom hcaller)
    exact hobtains
  | called _ _ hcaller => cases hfrom hcaller
  | atGate _ _ _ hcaller => cases hfrom hcaller
  | serving _ _ hcaller => cases hfrom hcaller
  | retrieving _ _ hcaller => cases hfrom hcaller
  | broken _ hcaller => cases hfrom hcaller
  | leaving _ hcaller _ => cases hfrom hcaller

/-- The world after a caller has settled. -/
theorem world_of_settle (hdecides : run.Decides task d (.retrieve forced))
    (hyields : run.Yields task (d + 1) cached.inner.retrieve n result) :
    (run.moment (n + 1)).world = (run.moment n).world.alterCache cached.cache
      fun _ => ((run.cache n).settle forced result).leave task := by
  obtain ⟨hevent, rest, hrest, hends⟩ := hyields
  obtain ⟨-, hmoment⟩ := run.moment_of_stride (hdecides.callers_of_reaches hrest) hevent
  obtain ⟨last, hsettle, -⟩ := Activity.exists_stride_alterCacheAndWake cached.cache
    (fun cache => (cache.settle forced result).leave task) result task (run.moment n).world
  rw [hmoment, Snapshot.stride, Activity.stride_bind_of_finished hends, CachedProvider.settle,
    hsettle]
  rfl

namespace Stages

variable {stage : Nat → TaskId → CacheStage} {area : Territory}

/-- A caller that decides what to do has been at the gate. -/
theorem atGate_of_decides (stages : run.Stages stage) (hdecides : run.Decides task d decision) :
    stage d task = .atGate := by
  have isStage := stages.isStage d task
  obtain ⟨rest, hrest, -, -⟩ := run.exists_rest hdecides.event
  obtain ⟨m, cache, hcall, hyields⟩ := id hdecides
  have hnot {now : Nat} {last : CredentialsCache.Decision} (hlt : now < d)
      (h : run.Decides task now last) : False :=
    absurd (h.unique hdecides).1 (by omega)
  generalize stage d task = now at isStage
  cases isStage with
  | away hnone =>
    rw [hnone] at hrest
    cases hrest
  | called hother hlook _ =>
    obtain rfl := call_unique hcall hother
    obtain ⟨-, last, hlast, hends⟩ := hyields
    obtain rfl := hlook.unique hlast
    cases hends
  | atGate => rfl
  | serving hearlier hlt _ => exact (hnot hlt hearlier).elim
  | retrieving hearlier hreaches _ => exact (hnot hreaches.le hearlier).elim
  | broken _ hcaller =>
    rw [hcaller] at hrest
    cases hrest
  | leaving hobtains _ _ =>
    obtain ⟨now, hlt, _, hearlier⟩ := hobtains.exists_decides
    exact (hnot hlt hearlier).elim
  | gone hobtains _ =>
    obtain ⟨now, hlt, _, hearlier⟩ := hobtains.exists_decides
    exact (hnot hlt hearlier).elim

/-- A caller that retrieves is at the stage of doing so. -/
theorem decided_of_reaches (stages : run.Stages stage)
    (hdecides : run.Decides task d (.retrieve forced)) {rest : Activity Retrieved}
    (hrest : run.Reaches task (d + 1) cached.inner.retrieve n rest) :
    stage n task = .decided (.retrieve forced) := by
  have isStage := stages.isStage n task
  have hturn := hdecides.callers_of_reaches hrest
  obtain ⟨m, cache, hcall, hyields⟩ := id hdecides
  have hlook {last : Activity (TaskId × CredentialsCache × CredentialsCache.Decision)} {m' : Nat}
      (hother : run.event m' = .call task)
      (h : run.Reaches task (m' + 1) cached.look n last) : False := by
    obtain rfl := call_unique hcall hother
    exact absurd (hyields.reaches_le h) (Nat.not_le_of_lt hrest.le)
  have hends {result : Retrieved} (h : run.Obtains task n result) : False := by
    cases h with
    | served _ hearlier => cases (hearlier.unique hdecides).2
    | retrieved hsn hearlier hover =>
      obtain ⟨rfl, -⟩ := hearlier.unique hdecides
      exact absurd (hover.reaches_le hrest) (Nat.not_le_of_lt hsn)
  generalize stage n task = now at isStage
  cases isStage with
  | away hnone =>
    rw [hnone] at hturn
    cases hturn
  | called hother h _ => exact (hlook hother h).elim
  | atGate hother h _ _ => exact (hlook hother h).elim
  | serving hearlier _ _ => cases (hearlier.unique hdecides).2
  | retrieving hearlier _ _ => rw [(hearlier.unique hdecides).2]
  | broken _ hcaller =>
    rw [hcaller] at hturn
    cases hturn
  | leaving hobtains _ _ => exact (hends hobtains).elim
  | gone hobtains _ => exact (hends hobtains).elim

/-- What a caller decides is what it finds in the cache. -/
theorem decide_eq (stages : run.Stages stage) (hdecides : run.Decides task d decision) :
    ∃ cache, (run.cache d).decide (cached.inner.isExpired (run.moment d).world) =
      .ok (cache, decision) := by
  have moves := stages.moves d task hdecides.event
  have isStage := stages.isStage (d + 1) task
  rw [stages.atGate_of_decides hdecides] at moves
  generalize stage (d + 1) task = later at moves isStage
  cases moves with
  | decide hother hdecide _ =>
    obtain ⟨-, rfl⟩ := hdecides.unique hother
    exact ⟨_, hdecide⟩
  | pause =>
    -- a caller that stays at the gate has not decided
    obtain ⟨m, cache, hcall, hyields⟩ := id hdecides
    cases isStage with
    | atGate hother hlook _ _ =>
      obtain rfl := call_unique hcall hother
      exact absurd (hyields.reaches_le hlook) (by omega)
    | broken _ hcaller =>
      rw [hdecides.callers] at hcaller
      cases hcaller

variable (hapart : cached.IsApart area)
include hapart

/-- A caller decides what to do inside the gate. -/
theorem holds_of_decides (stages : run.Stages stage) (hdecides : run.Decides task d decision) :
    run.Holds d task :=
  stages.holds_of_moves_decide hapart hdecides.event (stages.atGate_of_decides hdecides)

/-- A caller that retrieves is inside the gate. -/
theorem holds_of_reaches (stages : run.Stages stage)
    (hdecides : run.Decides task d (.retrieve forced)) {rest : Activity Retrieved}
    (hrest : run.Reaches task (d + 1) cached.inner.retrieve n rest) : run.Holds n task := by
  refine (stages.tracks hapart).holds ?_
  rw [stages.decided_of_reaches hdecides hrest]
  trivial

/-- From its decision on, a caller that retrieves is inside the gate. -/
theorem holds_of_retrieving (stages : run.Stages stage)
    (hdecides : run.Decides task d (.retrieve forced)) {rest : Activity Retrieved}
    (hrest : run.Reaches task (d + 1) cached.inner.retrieve n rest) (hdk : d ≤ k) (hkn : k ≤ n) :
    run.Holds k task := by
  rcases Nat.eq_or_lt_of_le hdk with rfl | hlt
  · exact stages.holds_of_decides hapart hdecides
  · obtain ⟨earlier, hearlier⟩ := hrest.exists_earlier hlt hkn
    exact stages.holds_of_reaches hapart hdecides hearlier

/-- A caller that has settled with new credentials has cached them. -/
theorem cached_of_settle (stages : run.Stages stage) {credentials : Credentials}
    (hdecides : run.Decides task d (.retrieve forced))
    (hyields : run.Yields task (d + 1) cached.inner.retrieve n (.ok credentials)) :
    (run.cache (n + 1)).cached = some credentials := by
  rw [Interleaving.cache, world_of_settle hdecides hyields,
    World.cache_alterCache_self (stages.sound hapart n).known]
  rfl

end Stages

end CloudSession.Interleaving
