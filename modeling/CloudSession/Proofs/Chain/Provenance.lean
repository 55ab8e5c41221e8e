import CloudSession.Proofs.Chain.Conclusion

/-!
# Where the credentials of a chain come from

A chain only notes at which place the provider stands that succeeded, and its credentials are cached
by those who retrieve, in different strides. Nevertheless, whenever a caller is served what is
cached, the expiry that it has looked at is that of the provider that made these credentials, and
after a retrieval in which all providers have failed nothing is served until one has succeeded
again.
-/

namespace CloudSession.Interleaving

variable {cached : CachedChain}

/-- Throughout an interleaving, the chain and its cache agree on where credentials come from. -/
structure KeepsProvenance (run : Interleaving cached.provider) : Prop where
  /-- However far a task has come with a retrieval of the chain: it asks one of the providers, those
  before it having been asked in vain, or the retrieval has come to its conclusion. -/
  asks : ∀ (task : TaskId) (m n : Nat) (rest : Activity Retrieved),
    run.Reaches task m cached.retrieve n rest →
      (∃ before link after k errors first, cached.links = before ++ link :: after ∧
        run.Misses task m before k errors ∧ run.Reaches task k link.retrieve n first) ∨
      ∃ s < n, ∃ place result, run.Concludes task m s place result ∧ rest = .done result
  /-- A retrieval of the chain that comes to its end has come to its conclusion before. -/
  retrieves : ∀ (task : TaskId) (m n : Nat) (result : Retrieved),
    run.Yields task m cached.retrieve n result → ∃ s < n, ∃ place,
      run.Concludes task m s place result
  /-- As soon as one of the providers has succeeded, or the last one has failed, the retrieval of a
  caller comes to its conclusion. -/
  concludes : ∀ (task : TaskId) (d s : Nat) (forced : Bool) (place : Option Nat)
    (result : Retrieved), run.Decides task d (.retrieve forced) →
      run.AsksInOrder task (d + 1) s place result → run.Concludes task (d + 1) s place result
  /-- A caller that comes to its end has got what it has decided to take, or what it has
  retrieved. -/
  returned : ∀ (n : Nat) (task : TaskId) (result : Retrieved), run.Returned n task result →
    (∃ d < n, ∃ credentials, run.Decides task d (.serve credentials) ∧ result = .ok credentials) ∨
      ∃ d s forced place, d < s ∧ s < n ∧ run.Decides task d (.retrieve forced) ∧
        run.Concludes task (d + 1) s place result
  /-- After a retrieval in which all providers have failed, and as long as no other comes to its
  conclusion, the cached credentials are what they were when it began, and nobody is served. -/
  failed : ∀ (task : TaskId) (d s n : Nat) (forced : Bool) (error : CredentialsError),
    run.Decides task d (.retrieve forced) → run.Concludes task (d + 1) s none (.error error) →
    run.LastConcluded s n none (.error error) →
      (run.cache n).cached = (run.cache d).cached ∧
        ∀ other credentials, ¬ run.Decides other n (.serve credentials)
  /-- A caller that decides to take what is cached is inside the gate then. The credentials are those
  of the last retrieval that has come to its conclusion, and the expiry that the caller has looked at
  is that of the provider that made them. -/
  serves : ∀ (task : TaskId) (d : Nat) (credentials : Credentials),
    run.Decides task d (.serve credentials) →
      run.Holds d task ∧ (run.cache d).cached = some credentials ∧
        ∃ s i link, run.LastConcluded s d (some i) (.ok credentials) ∧
          cached.links[i]? = some link ∧
            cached.provider.inner.isExpired (run.moment d).world =
              link.isExpired (run.moment d).world ∧
              link.isExpired (run.moment d).world = .ok false

variable {run : Interleaving cached.provider} {stage : Nat → TaskId → CacheStage} {task : TaskId}
  {d k n s : Nat} {forced : Bool} {place found : Option Nat} {result last : Retrieved}
  {rest : Activity Retrieved} {credentials : Credentials}

/-! ## One retrieval at a time -/

/-- While a caller retrieves, no retrieval but its own comes to its conclusion. -/
theorem Stages.concludes_of_concluded (stages : run.Stages stage)
    (hdecides : run.Decides task d (.retrieve forced))
    (hrest : run.Reaches task (d + 1) cached.retrieve n rest) (hdk : d ≤ k) (hkn : k ≤ n)
    (hconcluded : run.Concluded k place result) : run.Concludes task (d + 1) k place result := by
  obtain ⟨other, first, noted, hother, hconcludes⟩ := hconcluded
  have hholds := stages.holds_of_retrieving cached.isApart hdecides hrest hdk hkn
  have hinside := stages.holds_of_retrieving cached.isApart hother hconcludes.ended
    (Nat.le_of_succ_le hconcludes.asks.le) (Nat.le_succ k)
  obtain rfl : task = other := Option.some.inj (hholds.symm.trans hinside)
  obtain ⟨rfl, -⟩ := hdecides.unique hother
  exact hconcludes

/-- A retrieval that comes to its end is the last that has come to its conclusion. -/
theorem Stages.exists_lastConcluded_of_yields (stages : run.Stages stage)
    (hdecides : run.Decides task d (.retrieve forced))
    (hyields : run.Yields task (d + 1) cached.retrieve n result) :
    ∃ s place, run.LastConcluded s (n + 1) place result := by
  obtain ⟨s, hsn, place, hconcludes⟩ := hyields.exists_concludes
  obtain ⟨-, rest, hrest, -⟩ := hyields
  refine ⟨s, place, Nat.lt_succ_of_lt hsn, ⟨task, d, forced, hdecides, hconcludes⟩, ?_⟩
  intro k hsk hkn other others hconcluded
  have hdk : d ≤ k := (Nat.le_of_succ_le hconcludes.asks.le).trans (Nat.le_of_lt hsk)
  have hlater := stages.concludes_of_concluded hdecides hrest hdk (Nat.le_of_lt_succ hkn) hconcluded
  exact absurd (hconcludes.unique hlater).1 (Nat.ne_of_lt hsk)

/-- What is concluded at a moment is concluded with one result only. -/
theorem Concluded.unique (h : run.Concluded s place result) (hlast : run.Concluded s found last) :
    result = last := by
  obtain ⟨stage, stages⟩ := run.exists_stages
  obtain ⟨task, d, forced, hdecides, hconcludes⟩ := h
  have hsame := stages.concludes_of_concluded hdecides hconcludes.ended
    (Nat.le_of_succ_le hconcludes.asks.le) (Nat.le_succ s) hlast
  exact (hconcludes.unique hsame).2

/-- The last conclusion up to a moment has one result only. -/
theorem LastConcluded.unique (h : run.LastConcluded s n place result)
    (hlast : run.LastConcluded k n found last) : result = last := by
  rcases Nat.lt_trichotomy s k with hlt | rfl | hlt
  · exact absurd hlast.concluded (h.last k hlt hlast.before _ _)
  · exact h.concluded.unique hlast.concluded
  · exact absurd h.concluded (hlast.last s hlt h.before _ _)

/-! ## What is cached -/

/-- What is cached is from the last retrieval, unless that has failed or is still to be settled. -/
theorem Stages.exists_lastConcluded (stages : run.Stages stage)
    (hcached : (run.cache n).cached = some credentials) :
    ∃ s place result, run.LastConcluded s n place result ∧
      ((∃ error, result = .error error) ∨ result = .ok credentials ∨
        ∃ task d forced, run.Decides task d (.retrieve forced) ∧
          run.Reaches task (d + 1) cached.retrieve n (.done result)) := by
  induction n generalizing credentials with
  | zero =>
    have hempty : run.cache 0 = {} := run.untouched.cache_eq _
    rw [hempty] at hcached
    cases hcached
  | succ n ih =>
    by_cases hnow : ∃ place result, run.Concluded n place result
    · obtain ⟨place, result, hconcluded⟩ := hnow
      obtain ⟨task, d, forced, hdecides, hconcludes⟩ := id hconcluded
      have hlast : run.LastConcluded n (n + 1) place result :=
        ⟨Nat.lt_succ_self n, hconcluded, fun k hnk hkn => absurd hnk (by omega)⟩
      exact ⟨n, place, result, hlast, .inr (.inr ⟨task, d, forced, hdecides, hconcludes.ended⟩)⟩
    · have hnone (place : Option Nat) (result : Retrieved) : ¬ run.Concluded n place result :=
        fun h => hnow ⟨place, result, h⟩
      rcases stages.cached_cases cached.isApart n with hsame |
          ⟨task, d, forced, fetched, hdecides, hyields, hfetched⟩
      · obtain ⟨s, place, result, hlast, hcases⟩ := ih (hsame ▸ hcached)
        refine ⟨s, place, result, hlast.succ hnone, ?_⟩
        rcases hcases with herror | hok | ⟨task, d, forced, hdecides, hdone⟩
        · exact .inl herror
        · exact .inr (.inl hok)
        · by_cases hevent : run.event n = .stride task
          · cases result with
            | error error => exact .inl ⟨error, rfl⟩
            | ok fetched =>
              have hsettled := stages.cached_of_settle cached.isApart hdecides
                ⟨hevent, _, hdone, rfl⟩
              rw [hcached] at hsettled
              exact .inr (.inl (congrArg Except.ok (Option.some.inj hsettled).symm))
          · exact .inr (.inr ⟨task, d, forced, hdecides, hdone.other hevent⟩)
      · obtain rfl : fetched = credentials := Option.some.inj (hfetched.symm.trans hcached)
        obtain ⟨s, place, hlast⟩ := stages.exists_lastConcluded_of_yields hdecides hyields
        exact ⟨s, place, _, hlast, .inr (.inl rfl)⟩

/-- After a retrieval that has failed, the cached credentials stay as long as no other comes to its
conclusion. -/
theorem Stages.cached_eq_of_failed (stages : run.Stages stage) {error : CredentialsError}
    (hdecides : run.Decides task d (.retrieve forced))
    (hfails : run.Concludes task (d + 1) s place (.error error))
    (hlast : run.LastConcluded s n place (.error error)) (hdk : d ≤ k) (hkn : k ≤ n) :
    (run.cache k).cached = (run.cache d).cached := by
  induction k, hdk using Nat.le_induction with
  | base => rfl
  | succ k hdk ih =>
    rcases stages.cached_cases cached.isApart k with hsame |
        ⟨other, first, noted, fetched, hother, hyields, -⟩
    · exact hsame.trans (ih (Nat.le_of_succ_le hkn))
    · obtain ⟨j, hjk, found, hconcludes⟩ := hyields.exists_concludes
      have hconcluded : run.Concluded j found (.ok fetched) :=
        ⟨other, first, noted, hother, hconcludes⟩
      rcases Nat.lt_or_ge s j with hsj | hjs
      · exact absurd hconcluded (hlast.last j hsj (Nat.lt_of_lt_of_le hjk (Nat.le_of_succ_le hkn)) _ _)
      · rcases Nat.lt_or_ge j d with hjd | hdj
        · -- the other caller would have been inside when this one decided to retrieve
          obtain ⟨-, rest, hrest, -⟩ := hyields
          have hfirst := hconcludes.asks.le
          have hinside := stages.holds_of_retrieving cached.isApart hother hrest (by omega) hdk
          have hholds := stages.holds_of_decides cached.isApart hdecides
          obtain rfl : task = other := Option.some.inj (hholds.symm.trans hinside)
          obtain ⟨rfl, -⟩ := hdecides.unique hother
          omega
        · have hsame := stages.concludes_of_concluded hdecides hfails.ended hdj
            (Nat.le_succ_of_le hjs) hconcluded
          cases (hfails.unique hsame).2

/-! ## What is served -/

/-- What is served is from the last retrieval, and it is the expiry of the provider that made it that
has been looked at. -/
theorem Stages.serves (stages : run.Stages stage) (hdecides : run.Decides task d (.serve credentials)) :
    (run.cache d).cached = some credentials ∧ ∃ s i link,
      run.LastConcluded s d (some i) (.ok credentials) ∧ cached.links[i]? = some link ∧
        cached.provider.inner.isExpired (run.moment d).world =
          link.isExpired (run.moment d).world ∧ link.isExpired (run.moment d).world = .ok false := by
  obtain ⟨cache, hdecide⟩ := stages.decide_eq hdecides
  obtain ⟨hcached, -, hexpired⟩ := CredentialsCache.served_of_decide hdecide
  have hat : Provider.isExpiredAt (run.moment d).world (run.current d) cached.links = .ok false := by
    change Provider.isExpired _ (.chain cached.note cached.verbose cached.links) = _ at hexpired
    rwa [Provider.isExpired] at hexpired
  obtain ⟨i, link, hcurrent, hlink, hfresh⟩ := Provider.exists_of_isExpiredAt hat
  obtain ⟨s, place, result, hlast, hcases⟩ := stages.exists_lastConcluded hcached
  obtain rfl := hlast.place_eq hcurrent
  obtain ⟨other, first, noted, hother, hconcludes⟩ := hlast.concluded
  obtain ⟨fetched, rfl⟩ := hconcludes.asks.exists_ok
  refine ⟨hcached, s, i, link, ?_, hlink, hexpired.trans hfresh.symm, hfresh⟩
  rcases hcases with ⟨error, herror⟩ | hok | ⟨last, now, noted, hretrieves, hdone⟩
  · cases herror
  · rwa [hok] at hlast
  · -- a caller that had still to settle would be inside
    have hinside := stages.holds_of_reaches cached.isApart hretrieves hdone
    have hholds := stages.holds_of_decides cached.isApart hdecides
    obtain rfl : task = last := Option.some.inj (hholds.symm.trans hinside)
    cases (hdecides.unique hretrieves).2

/-- In every interleaving, a chain and its cache agree on where credentials come from. -/
theorem keepsProvenance (run : Interleaving cached.provider) : run.KeepsProvenance := by
  obtain ⟨stage, stages⟩ := run.exists_stages
  constructor
  case asks =>
    intro task m n rest hrest
    refine hrest.course_retrieve.conclusion.imp_left ?_
    rintro ⟨before, link, after, k, errors, first, later, hlinks, hmissed, -, hfirst, -⟩
    exact ⟨before, link, after, k, errors, first, hlinks, hmissed, hfirst⟩
  case retrieves => exact fun task m n result hyields => hyields.exists_concludes
  case concludes =>
    intro task d s forced place result hdecides hasks
    exact hasks.concludes hdecides.callers
  case returned =>
    intro n task result hreturned
    cases obtains_of_returned hreturned with
    | served hdn hdecides => exact .inl ⟨_, hdn, _, hdecides, rfl⟩
    | @retrieved d last forced _ hlast hdecides hyields =>
      obtain ⟨s, hs, place, hconcludes⟩ := hyields.exists_concludes
      exact .inr ⟨d, s, forced, place, hconcludes.asks.le, hs.trans hlast, hdecides, hconcludes⟩
  case failed =>
    intro task d s n forced error hdecides hfails hlast
    have hdn : d ≤ n := by
      have hds := hfails.asks.le
      have hsn := hlast.before
      omega
    refine ⟨stages.cached_eq_of_failed hdecides hfails hlast hdn le_rfl, ?_⟩
    intro other credentials hserves
    obtain ⟨-, k, i, link, hserved, -⟩ := stages.serves hserves
    cases hlast.unique hserved
  case serves =>
    intro task d credentials hdecides
    exact ⟨stages.holds_of_decides cached.isApart hdecides, stages.serves hdecides⟩

/-- The second provider makes the first credentials, with which caller 2 is served. After an expiry by
hand both providers fail caller 3, and for caller 4 the first provider succeeds, whose credentials
caller 5 is served. -/
def recovered : Interleaving (CachedChain.provider
    { cache := 0, note := 0, verbose := true, links := [.scripted 0, .scripted 1]
      nonempty := by simp
      alone := by simp [Provider.AreWithin, Provider.IsWithin] }) :=
  let first : List (Span × Retrieved) :=
    [(.ofSeconds 1, .error (.providerError "offline")),
      (.ofSeconds 1, .error (.providerError "unavailable")),
      (.ofSeconds 1, .ok (.ofKeys "renewed" "" none ""))]
  let second : List (Span × Retrieved) :=
    [(.ofSeconds 1, .ok (.ofKeys "fallback" "" none "")),
      (.ofSeconds 1, .error (.providerError "exhausted"))]
  .play _ { providers := [{ answers := first }, { answers := second }], caches := [{}]
            chains := [none] }
    ⟨by simp, by simp⟩ Nat.zero_lt_one
    ([.call 1] ++ List.replicate 11 (.stride 1) ++ [.call 2] ++ List.replicate 4 (.stride 2) ++
      [.expiry, .call 3] ++ List.replicate 11 (.stride 3) ++ [.call 4] ++
      List.replicate 8 (.stride 4) ++ [.call 5] ++ List.replicate 4 (.stride 5))
    (by decide +kernel)

/-- Two callers get the credentials of the fallback, one is told how all providers have failed, and
the first provider serves again afterwards: in all of this, the chain keeps its provenance. -/
theorem recovered_keepsProvenance :
    recovered.Returned 44 1 (.ok (.ofKeys "fallback" "" none "")) ∧
      recovered.Returned 44 2 (.ok (.ofKeys "fallback" "" none "")) ∧
      recovered.Returned 44 3 (.error (.noValidProviders
        [.providerError "unavailable", .providerError "exhausted"])) ∧
      (recovered.cache 30).cached = some (.ofKeys "fallback" "" none "") ∧
      recovered.Returned 44 4 (.ok (.ofKeys "renewed" "" none "")) ∧
      recovered.Returned 44 5 (.ok (.ofKeys "renewed" "" none "")) ∧ recovered.KeepsProvenance :=
  ⟨rfl, rfl, rfl, rfl, rfl, rfl, recovered.keepsProvenance⟩

end CloudSession.Interleaving
