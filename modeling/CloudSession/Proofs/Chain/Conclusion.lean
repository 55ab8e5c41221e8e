import CloudSession.Proofs.Chain.Retrieval
import CloudSession.Proofs.Interleaving.Decisions

/-!
# Retrievals of a cached chain

A retrieval of a chain behind a cache comes to its conclusion when the first provider succeeds, or
the last one fails. That is noted in the same stride, and nothing is left to do after that. In
between, and while nobody retrieves, the note stays as it is.
-/

namespace CloudSession

/-- All caches and notes but cache `c` and the note of chain `note`. -/
def Territory.elsewhere (c note : Nat) : Territory where
  caches := (· ≠ c)
  chains := (· ≠ note)
  roles _ := True

/-- All caches and notes but cache `c`. -/
def Territory.beside (c : Nat) : Territory where
  caches := (· ≠ c)
  chains _ := True
  roles _ := True

/-- A chain of providers behind a cache. The providers, of which there is one at least, know neither
the cache nor the note of which of them succeeded. -/
structure CachedChain where
  cache : Nat
  /-- The name of the note. -/
  note : Nat
  /-- Whether the errors of the providers are told. -/
  verbose : Bool
  links : List Provider
  nonempty : links ≠ []
  alone : Provider.AreWithin (.elsewhere cache note) links

namespace CachedChain

variable (cached : CachedChain)

/-- The chain as a provider behind the cache. -/
def provider : CachedProvider where
  cache := cached.cache
  inner := .chain cached.note cached.verbose cached.links

/-- A retrieval of the chain. -/
def retrieve : Activity Retrieved := cached.provider.inner.retrieve

/-- A cache in front of a chain asks the links in order, from the first on. -/
theorem retrieve_eq : cached.retrieve =
    askInOrder cached.note cached.verbose 0 [] (Provider.retrieveEach cached.links) := by
  rw [retrieve, provider, Provider.retrieve]

/-- The chain shares nothing with the cache in front of it. -/
theorem isApart : cached.provider.IsApart (.beside cached.cache) where
  within := ⟨trivial, Provider.AreWithin.mono cached.links cached.alone
    ⟨fun _ h => h, fun _ _ => trivial, fun _ h => h⟩⟩
  apart h := h rfl

end CachedChain

/-- If the credentials of a chain do not count as expired, some provider is noted, and it is its
credentials that do not count as expired. -/
theorem Provider.exists_of_isExpiredAt {world : World} {place : Option Nat} {links : List Provider}
    (h : isExpiredAt world place links = .ok false) :
    ∃ i link, place = some i ∧ links[i]? = some link ∧ link.isExpired world = .ok false := by
  induction links generalizing place with
  | nil => simp [isExpiredAt] at h
  | cons first rest ih =>
    match place with
    | none => simp [isExpiredAt] at h
    | some 0 => exact ⟨0, first, rfl, rfl, by simpa [isExpiredAt] using h⟩
    | some (n + 1) =>
      have hrest : isExpiredAt world (some n) rest = .ok false := by simpa [isExpiredAt] using h
      obtain ⟨i, link, hplace, hlink, hexpired⟩ := ih hrest
      obtain rfl := Option.some.inj hplace
      exact ⟨n + 1, link, rfl, hlink, hexpired⟩

namespace Interleaving

variable {cached : CachedChain}

/-- How the providers of a chain come off that are asked from moment `m` on: one of them succeeds
after moment `s`, those before it having failed, or the last of them fails as well. -/
inductive AsksInOrder (run : Interleaving cached.provider) (task : TaskId) (m s : Nat) :
    Option Nat → Retrieved → Prop
  | found {before after : List Provider} {link : Provider} {k : Nat} {errors : List CredentialsError}
      {credentials : Credentials} : cached.links = before ++ link :: after →
      run.Misses task m before k errors → run.Yields task k link.retrieve s (.ok credentials) →
      AsksInOrder run task m s (some before.length) (.ok credentials)
  | exhausted {errors : List CredentialsError} : run.event s = .stride task →
      run.Misses task m cached.links s errors →
      AsksInOrder run task m s none
        (.error (.noValidProviders (if cached.verbose then errors else [])))

/-- A retrieval of the chain that a task has begun at moment `m` comes to its conclusion after moment
`s`: it is noted which provider has succeeded, and there is nothing left to do. -/
structure Concludes (run : Interleaving cached.provider) (task : TaskId) (m s : Nat)
    (place : Option Nat) (result : Retrieved) : Prop where
  asks : run.AsksInOrder task m s place result
  noted : (run.moment (s + 1)).world = (run.moment s).world.setCurrent cached.note place
  ended : run.Reaches task m cached.retrieve (s + 1) (.done result)

/-- After moment `s`, the retrieval of some caller comes to its conclusion. -/
def Concluded (run : Interleaving cached.provider) (s : Nat) (place : Option Nat)
    (result : Retrieved) : Prop :=
  ∃ task d forced, run.Decides task d (.retrieve forced) ∧
    run.Concludes task (d + 1) s place result

/-- The last retrieval of a caller that has come to its conclusion before moment `n` has done so after
moment `s`. -/
structure LastConcluded (run : Interleaving cached.provider) (s n : Nat) (place : Option Nat)
    (result : Retrieved) : Prop where
  before : s < n
  concluded : run.Concluded s place result
  last : ∀ k, s < k → k < n → ∀ place result, ¬ run.Concluded k place result

variable {run : Interleaving cached.provider} {task other : TaskId} {d k m n s : Nat}
  {place found : Option Nat} {result last : Retrieved} {rest : Activity Retrieved}

/-! ## One retrieval -/

/-- To ask in order comes to its end in a stride of the caller. -/
theorem AsksInOrder.event (h : run.AsksInOrder task m s place result) :
    run.event s = .stride task := by
  cases h with
  | found _ _ hyields => exact hyields.event
  | exhausted hevent _ => exact hevent

/-- To ask in order comes to its end no sooner than it has begun. -/
theorem AsksInOrder.le (h : run.AsksInOrder task m s place result) : m ≤ s := by
  cases h with
  | found _ hmissed hyields => exact hmissed.le.trans hyields.le
  | exhausted _ hmissed => exact hmissed.le

/-- A provider is noted if it has succeeded. -/
theorem AsksInOrder.exists_ok {i : Nat} (h : run.AsksInOrder task m s (some i) result) :
    ∃ credentials, result = .ok credentials := by
  generalize hplace : some i = place at h
  cases h with
  | found => exact ⟨_, rfl⟩
  | exhausted => cases hplace

namespace Concludes

/-- A retrieval is concluded in a stride of its caller. -/
theorem event (h : run.Concludes task m s place result) : run.event s = .stride task :=
  h.asks.event

/-- After its conclusion, a retrieval goes nowhere. -/
theorem eq_done (h : run.Concludes task m s place result)
    (hrest : run.Reaches task m cached.retrieve n rest) (hsn : s < n) : rest = .done result :=
  hrest.eq_done h.ended hsn

/-- No conclusion of a retrieval comes after another. -/
theorem le (h : run.Concludes task m s place result)
    (hlast : run.Concludes task m k found last) : k ≤ s := by
  by_contra hlt
  obtain ⟨before, hbefore, hstride⟩ := hlast.ended.exists_before hlast.asks.le hlast.event
  rw [h.eq_done hbefore (Nat.lt_of_not_le hlt)] at hstride
  cases hstride

/-- A retrieval comes to its conclusion once. -/
theorem unique (h : run.Concludes task m s place result)
    (hlast : run.Concludes task m k found last) : s = k ∧ result = last := by
  obtain rfl := Nat.le_antisymm (hlast.le h) (h.le hlast)
  have hdone := h.ended.unique hlast.ended
  injection hdone with hresult
  exact ⟨rfl, hresult⟩

end Concludes

/-- A retrieval of the chain is on its course. -/
theorem Reaches.course_retrieve (h : run.Reaches task m cached.retrieve n rest) :
    run.Course task cached.note cached.verbose 0 [] cached.links m n rest := by
  rw [cached.retrieve_eq] at h
  exact h.course fun hempty => absurd hempty cached.nonempty

/-- A task that retrieves asks one of the providers, or has come to the conclusion. -/
theorem Course.conclusion (course : run.Course task cached.note cached.verbose 0 [] cached.links m n
    rest) :
    (∃ before link after k errors first later, cached.links = before ++ link :: after ∧
      run.Misses task m before k errors ∧ (before = [] ∧ k = m ∨ k < n) ∧
        run.Reaches task k link.retrieve n first ∧ rest = first >>= later ∧
          ∀ result, GoesOn task (later result)) ∨
      ∃ s < n, ∃ place result, run.Concludes task m s place result ∧ rest = .done result := by
  cases course with
  | asking hlinks hmissed hbegun hfirst hlater =>
    exact .inl ⟨_, _, _, _, _, _, _, hlinks, hmissed, hbegun, hfirst, rfl, hlater⟩
  | found hsn hlinks hmissed hyields hworld hdone =>
    rw [← cached.retrieve_eq] at hdone
    rw [Nat.zero_add] at hworld
    exact .inr ⟨_, hsn, _, _, ⟨.found hlinks hmissed hyields, hworld, hdone⟩, rfl⟩
  | exhausted hsn hevent hmissed hresult hworld hdone =>
    rw [← cached.retrieve_eq] at hdone
    rw [List.nil_append] at hresult
    subst hresult
    exact .inr ⟨_, hsn, _, _, ⟨.exhausted hevent hmissed, hworld, hdone⟩, rfl⟩

/-- A retrieval that comes to its end has come to its conclusion. -/
theorem Yields.exists_concludes (h : run.Yields task m cached.retrieve n result) :
    ∃ s < n, ∃ place, run.Concludes task m s place result := by
  obtain ⟨-, rest, hrest, hends⟩ := h
  rcases hrest.course_retrieve.conclusion with
    ⟨before, link, after, k, errors, first, later, -, -, -, -, rfl, hlater⟩ |
      ⟨s, hsn, place, last, hconcludes, rfl⟩
  · rcases first.stride_cases task (run.moment n).world with ⟨value, hstride⟩ | ⟨fault, hstride⟩ |
        ⟨next, world, hstride⟩
    · rw [Activity.stride_bind_of_finished hstride] at hends
      exact absurd hends (hlater value _ _ _)
    · rw [Activity.stride_bind_of_failed hstride] at hends
      cases hends
    · rw [Activity.stride_bind_of_waiting hstride] at hends
      cases hends
  · obtain rfl : last = result := Turn.finished.inj (congrArg Prod.fst hends)
    exact ⟨s, hsn, place, hconcludes⟩

/-- A caller that retrieves comes to the conclusion as soon as its providers have come off. -/
theorem AsksInOrder.concludes (h : run.AsksInOrder task m s place result)
    {f : Retrieved → Activity Retrieved}
    (hcaller : (run.moment m).callers task = some (.waiting (cached.retrieve >>= f))) :
    run.Concludes task m s place result := by
  have habout : ∃ next, run.IsAbout task m cached.retrieve s next ∧
      next.stride task (run.moment s).world =
        (.waiting (.done result), (run.moment s).world.setCurrent cached.note place) := by
    rw [cached.retrieve_eq]
    cases h with
    | found hlinks hmissed hyields =>
      rw [hlinks]
      refine ⟨_, hmissed.isAbout hyields.isAbout_askInOrder, ?_⟩
      rw [Nat.zero_add]
      rfl
    | exhausted hevent hmissed =>
      refine ⟨_, List.append_nil cached.links ▸ hmissed.isAbout (.refl _), ?_⟩
      rw [List.nil_append]
      rfl
  obtain ⟨next, ⟨rest, hrest, hsame⟩, hnext⟩ := habout
  have hstride := hsame.trans hnext
  obtain ⟨-, hmoment⟩ := run.moment_of_stride (callers_of_reaches hcaller hrest) h.event
  have hworld : (run.moment (s + 1)).world = (run.moment s).world.setCurrent cached.note place := by
    rw [hmoment, Snapshot.stride, Activity.stride_bind_of_waiting hstride]
  exact ⟨h, hworld, hrest.stride h.event (hworld ▸ hstride)⟩

/-! ## The note -/

/-- Which provider is noted at a moment. -/
def current (run : Interleaving cached.provider) (n : Nat) : Option Nat :=
  (run.moment n).world.current cached.note

/-- A task that retrieves leaves the note as it is, unless it comes to the conclusion. -/
theorem current_of_retrieve {next : Activity Retrieved} (hmn : m ≤ n)
    (hnext : run.Reaches task m cached.retrieve (n + 1) next)
    (hevent : run.event n = .stride task) :
    run.current (n + 1) = run.current n ∨ ∃ place result, run.Concludes task m n place result := by
  rcases hnext.course_retrieve.conclusion with
    ⟨before, link, after, k, errors, first, later, hlinks, -, hbegun, hfirst, -, -⟩ |
      ⟨s, hsn, place, result, hconcludes, rfl⟩
  · have hkn : k ≤ n := by omega
    obtain ⟨earlier, hearlier, hstride⟩ := hfirst.exists_before hkn hevent
    have hlink : link.IsWithin (.elsewhere cached.cache cached.note) :=
      cached.alone.of_mem (by simp [hlinks])
    have hstays := ((hearlier.stays (link.stays_retrieve hlink) _).stride hstride).1
    exact .inl (hstays.current cached.note fun hne => hne rfl)
  · rcases Nat.lt_succ_iff_lt_or_eq.mp hsn with hlt | rfl
    · obtain ⟨before, hbefore, hstride⟩ := hnext.exists_before hmn hevent
      rw [hconcludes.eq_done hbefore hlt] at hstride
      cases hstride
    · exact .inr ⟨place, result, hconcludes⟩

/-- The note stays as it is, unless some retrieval comes to its conclusion. -/
theorem current_cases (run : Interleaving cached.provider) (n : Nat) :
    run.current (n + 1) = run.current n ∨ ∃ place result, run.Concluded n place result := by
  obtain ⟨stage, stages⟩ := run.exists_stages
  have hkept {f : CredentialsCache → CredentialsCache} (h : (run.moment (n + 1)).world =
      (run.moment n).world.alterCache cached.cache f) : run.current (n + 1) = run.current n := by
    rw [current, current, h]
    rfl
  rcases run.world_cases n with ⟨task, hevent⟩ | ⟨-, houtside | hexpiry⟩
  · have moves := stages.moves n task hevent
    generalize stage (n + 1) task = later at moves
    generalize stage n task = before at moves
    cases moves with
    | @retrieve d forced rest next hdecides hrest hstride =>
      have hnext := hrest.stride hevent hstride
      rcases current_of_retrieve hrest.le hnext hevent with hsame | ⟨place, result, hconcludes⟩
      · exact .inl hsame
      · exact .inr ⟨place, result, task, d, forced, hdecides, hconcludes⟩
    | arrive hworld | decide _ _ hworld | serve hworld | settle _ _ hworld =>
      exact .inl (hkept hworld)
    | pause hworld => exact .inl (congrArg (World.current · cached.note) hworld)
  · left
    rw [current, current, World.current, World.current, houtside.chains]
  · exact .inl (hkept hexpiry)

/-- If a provider is noted, it is the one with which the last retrieval came to its conclusion. -/
theorem LastConcluded.place_eq {i : Nat} (h : run.LastConcluded s n place result)
    (hcurrent : run.current n = some i) : place = some i := by
  obtain ⟨hsn, ⟨task, d, forced, -, hconcludes⟩, hlast⟩ := h
  replace hsn := Nat.succ_le_of_lt hsn
  induction n, hsn using Nat.le_induction with
  | base =>
    rw [current, hconcludes.noted, World.current, World.setCurrent] at hcurrent
    by_cases hknown : cached.note < (run.moment s).world.chains.length
    · simpa [hknown] using hcurrent
    · simp [hknown] at hcurrent
  | succ n hsn ih =>
    rcases run.current_cases n with hsame | ⟨place, result, hconcluded⟩
    · exact ih (hsame ▸ hcurrent) fun k hsk hkn => hlast k hsk (Nat.lt_succ_of_lt hkn)
    · exact absurd hconcluded (hlast n hsn (Nat.lt_succ_self n) place result)

/-- As long as no other retrieval comes to its conclusion, the last one stays the last. -/
theorem LastConcluded.succ (h : run.LastConcluded s n place result)
    (hnone : ∀ place result, ¬ run.Concluded n place result) :
    run.LastConcluded s (n + 1) place result := by
  refine ⟨Nat.lt_succ_of_lt h.before, h.concluded, fun k hsk hkn => ?_⟩
  rcases Nat.lt_succ_iff_lt_or_eq.mp hkn with hlt | rfl
  · exact h.last k hsk hlt
  · exact hnone

end Interleaving

end CloudSession
