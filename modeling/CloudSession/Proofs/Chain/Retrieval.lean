import CloudSession.Proofs.Interleaving.Reach

/-!
# How a chain asks its providers

A chain asks its providers one after the other, each once, until one succeeds, and notes which one
that was. However far a task has come with that, those before have been asked in vain, and it either
waits for the answer of the next one or is done, with nothing left to do.
-/

namespace CloudSession.Interleaving

variable {cached : CachedProvider} {run : Interleaving cached} {task : TaskId} {k m n s : Nat}

/-- Providers are asked in vain from moment `m` on, one after the other and each once. What comes
after the last of them begins with the stride after moment `n`. -/
inductive Misses (run : Interleaving cached) (task : TaskId) :
    Nat → List Provider → Nat → List CredentialsError → Prop
  | none (m : Nat) : Misses run task m [] m []
  | more {m k n : Nat} {link : Provider} {links : List Provider} {error : CredentialsError}
      {errors : List CredentialsError} : run.Yields task m link.retrieve k (.error error) →
      Misses run task k links n errors → Misses run task m (link :: links) n (error :: errors)

/-- Providers that are asked in vain have failed no sooner than they were asked. -/
theorem Misses.le {links : List Provider} {errors : List CredentialsError}
    (h : run.Misses task m links n errors) : m ≤ n := by
  induction h with
  | none => exact le_rfl
  | more first _ ih => exact first.le.trans ih

/-- An activity that does not come to its end in one stride. -/
def GoesOn (task : TaskId) (activity : Activity Retrieved) : Prop :=
  ∀ (world after : World) (result : Retrieved),
    activity.stride task world ≠ (.finished result, after)

/-- How far a task has come that has asked the providers of a chain since moment `m`, where those
before place `place` have failed with `errors`. -/
inductive Course (run : Interleaving cached) (task : TaskId) (note : Nat) (verbose : Bool)
    (place : Nat) (errors : List CredentialsError) (links : List Provider) (m n : Nat) :
    Activity Retrieved → Prop
  /-- The task asks a provider. -/
  | asking {before after : List Provider} {link : Provider} {k : Nat}
      {missed : List CredentialsError} {first : Activity Retrieved}
      {later : Retrieved → Activity Retrieved} : links = before ++ link :: after →
      run.Misses task m before k missed → (before = [] ∧ k = m ∨ k < n) →
      run.Reaches task k link.retrieve n first → (∀ result, GoesOn task (later result)) →
      Course run task note verbose place errors links m n (first >>= later)
  /-- A provider has succeeded. -/
  | found {before after : List Provider} {link : Provider} {k s : Nat}
      {missed : List CredentialsError} {credentials : Credentials} : s < n →
      links = before ++ link :: after → run.Misses task m before k missed →
      run.Yields task k link.retrieve s (.ok credentials) →
      (run.moment (s + 1)).world =
        (run.moment s).world.setCurrent note (some (place + before.length)) →
      run.Reaches task m (askInOrder note verbose place errors (Provider.retrieveEach links)) (s + 1)
        (.done (.ok credentials)) →
      Course run task note verbose place errors links m n (.done (.ok credentials))
  /-- All providers have failed. -/
  | exhausted {s : Nat} {missed : List CredentialsError} {result : Retrieved} : s < n →
      run.event s = .stride task → run.Misses task m links s missed →
      result = .error (.noValidProviders (errors ++ if verbose then missed else [])) →
      (run.moment (s + 1)).world = (run.moment s).world.setCurrent note none →
      run.Reaches task m (askInOrder note verbose place errors (Provider.retrieveEach links)) (s + 1)
        (.done result) →
      Course run task note verbose place errors links m n (.done result)

/-- What a task does once a provider has answered. -/
def afterLink (note : Nat) (verbose : Bool) (place : Nat) (errors : List CredentialsError)
    (rest : List (Activity Retrieved)) : Retrieved → Activity Retrieved
  | .ok credentials => do
    Activity.modify (·.setCurrent note (some place))
    return .ok credentials
  | .error error =>
    askInOrder note verbose (place + 1) (if verbose then errors ++ [error] else errors) rest

variable {note place : Nat} {verbose : Bool} {errors : List CredentialsError}
  {rest : Activity Retrieved} {result : Retrieved} {link : Provider} {links : List Provider}

/-- Links are asked in order: the first one, and the others once it has nothing to give. -/
theorem askInOrder_cons (first : Activity Retrieved) (others : List (Activity Retrieved)) :
    askInOrder note verbose place errors (first :: others) =
      first >>= afterLink note verbose place errors others := by
  rw [askInOrder]
  refine congrArg (Activity.bind first) (funext fun result => ?_)
  cases result <;> rfl

/-- A chain does not come to its end before it has noted who succeeded. -/
theorem goesOn_askInOrder (others : List (Activity Retrieved)) :
    GoesOn task (askInOrder note verbose place errors others) := by
  induction others generalizing place errors with
  | nil =>
    intro world after result h
    cases h
  | cons first others ih =>
    intro world after result h
    rw [askInOrder_cons] at h
    rcases first.stride_cases task world with ⟨value, hstride⟩ | ⟨fault, hstride⟩ |
        ⟨next, later, hstride⟩
    · rw [Activity.stride_bind_of_finished hstride] at h
      cases value with
      | ok credentials => cases h
      | error error => exact ih world after result h
    · rw [Activity.stride_bind_of_failed hstride] at h
      cases h
    · rw [Activity.stride_bind_of_waiting hstride] at h
      cases h

/-- After a link has given its answer, the chain is not done within the same stride. -/
theorem goesOn_afterLink (others : List (Activity Retrieved)) (result : Retrieved) :
    GoesOn task (afterLink note verbose place errors others result) := by
  cases result with
  | ok credentials =>
    intro world after result h
    cases h
  | error error => exact goesOn_askInOrder others

/-- A task that changes the world and has a result after that does so with its first stride. -/
theorem Reaches.of_modify {f : World → World}
    (h : run.Reaches task k (Activity.modify f >>= fun _ => pure result) n rest)
    (hevent : run.event k = .stride task) (hkn : k < n) :
    (run.moment (k + 1)).world = f (run.moment k).world ∧ rest = .done result ∧
      run.Reaches task k (Activity.modify f >>= fun _ => pure result) (k + 1) (.done result) := by
  obtain ⟨next, hnext⟩ := h.exists_earlier (Nat.le_succ k) hkn
  obtain ⟨before, hbefore, hstride⟩ := hnext.exists_before le_rfl hevent
  obtain rfl := hbefore.eq_self
  obtain ⟨hwaiting, hworld⟩ := Prod.mk.inj hstride
  obtain rfl : .done result = next := Turn.waiting.inj hwaiting
  exact ⟨hworld.symm, h.eq_done hnext hkn, hnext⟩

/-- One more provider has been asked in vain before the others. -/
theorem Course.cons {error : CredentialsError}
    (first : run.Yields task m link.retrieve k (.error error)) (hkn : k < n)
    (course : run.Course task note verbose (place + 1)
      (if verbose then errors ++ [error] else errors) links k n rest) :
    run.Course task note verbose place errors (link :: links) m n rest := by
  have hreaches {j : Nat} {last : Activity Retrieved} (hkj : k < j) (h : run.Reaches task k
      (askInOrder note verbose (place + 1) (if verbose then errors ++ [error] else errors)
        (Provider.retrieveEach links)) j last) :
      run.Reaches task m (askInOrder note verbose place errors
        (Provider.retrieveEach (link :: links))) j last := by
    rw [Provider.retrieveEach, askInOrder_cons]
    exact first.reaches_bind h hkj
  cases course with
  | @asking _ _ _ j _ _ _ hlinks hmissed hbegun hfirst hlater =>
    have hjn : j < n := by
      rcases hbegun with ⟨-, rfl⟩ | hlt
      · exact hkn
      · exact hlt
    exact .asking (congrArg (link :: ·) hlinks) (.more first hmissed) (.inr hjn) hfirst hlater
  | found hsn hlinks hmissed hyields hworld hdone =>
    have hks := Nat.lt_succ_of_le (hmissed.le.trans hyields.le)
    refine .found hsn (congrArg (link :: ·) hlinks) (.more first hmissed) hyields ?_
      (hreaches hks hdone)
    rw [hworld, List.length_cons]
    congr 2
    omega
  | exhausted hsn hevent hmissed hresult hworld hdone =>
    refine .exhausted hsn hevent (.more first hmissed) ?_ hworld
      (hreaches (Nat.lt_succ_of_le hmissed.le) hdone)
    rw [hresult]
    cases verbose <;> simp

/-- However far a task has come that asks the providers of a chain, it is on its course. -/
theorem Reaches.course (h : run.Reaches task m
      (askInOrder note verbose place errors (Provider.retrieveEach links)) n rest)
    (hbegun : links = [] → run.event m = .stride task ∧ m < n) :
    run.Course task note verbose place errors links m n rest := by
  induction links generalizing m place errors with
  | nil =>
    obtain ⟨hevent, hmn⟩ := hbegun rfl
    obtain ⟨hworld, rfl, hdone⟩ := Reaches.of_modify h hevent hmn
    exact .exhausted hmn hevent (.none m) (by cases verbose <;> simp) hworld hdone
  | cons link links ih =>
    have hlinks : link :: links = [] ++ link :: links := rfl
    rw [Provider.retrieveEach, askInOrder_cons] at h
    rcases h.bind_cases with ⟨first, hfirst, rfl⟩ | ⟨k, result, hkn, hyields, hlast⟩
    · exact .asking hlinks (.none m) (.inl ⟨rfl, rfl⟩) hfirst
        (goesOn_afterLink (Provider.retrieveEach links))
    · cases result with
      | ok credentials =>
        obtain ⟨hworld, rfl, hdone⟩ := Reaches.of_modify hlast hyields.event hkn
        refine .found hkn hlinks (.none m) hyields hworld ?_
        rw [Provider.retrieveEach, askInOrder_cons]
        exact hyields.reaches_bind hdone (Nat.lt_succ_self k)
      | error error => exact .cons hyields hkn (ih hlast fun _ => ⟨hyields.event, hkn⟩)

/-- At the end of a provider, a task does what comes after it. -/
theorem Yields.isAbout_askInOrder {after : List Provider}
    (h : run.Yields task m link.retrieve n result) :
    run.IsAbout task m
      (askInOrder note verbose place errors (Provider.retrieveEach (link :: after))) n
      (afterLink note verbose place errors (Provider.retrieveEach after) result) := by
  rw [Provider.retrieveEach, askInOrder_cons]
  exact h.isAbout_bind

/-- A task that has asked the first providers of a chain in vain turns to those after them. -/
theorem Misses.isAbout {before after : List Provider} {missed : List CredentialsError}
    {next : Activity Retrieved} (h : run.Misses task m before k missed)
    (hafter : run.IsAbout task k (askInOrder note verbose (place + before.length)
      (errors ++ if verbose then missed else []) (Provider.retrieveEach after)) n next) :
    run.IsAbout task m
      (askInOrder note verbose place errors (Provider.retrieveEach (before ++ after))) n next := by
  induction h generalizing place errors with
  | none m =>
    have herrors : (errors ++ if verbose then [] else []) = errors := by cases verbose <;> simp
    rwa [herrors] at hafter
  | @more m k n link links error missed first _ ih =>
    have hplace : place + (link :: links).length = place + 1 + links.length := by
      rw [List.length_cons]
      omega
    have herrors : (errors ++ if verbose then error :: missed else []) =
        (if verbose then errors ++ [error] else errors) ++ if verbose then missed else [] := by
      cases verbose <;> simp
    rw [hplace, herrors] at hafter
    rw [List.cons_append, Provider.retrieveEach, askInOrder_cons]
    exact first.isAbout_bind.trans first.event (ih hafter)

end CloudSession.Interleaving
