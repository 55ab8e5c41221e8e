import CloudSession.Proofs.Interleaving.Noted

/-!
# No expiry is lost

The credentials of a cache may be expired by hand at any time, also while a caller retrieves others.
What a caller caches comes from an answer for which the provider was asked; until then, an expiry by
hand after the provider was asked stays in force or is noted by a caller inside the gate. So a caller
that is let in after an expiry never leaves with credentials for which the provider was asked before
it, and a caller that leaves with an error leaves the expiry in force.
-/

namespace CloudSession.Interleaving

variable {c script : Nat}

/-- Throughout an interleaving, no expiry by hand is lost. -/
structure LosesNoExpiry (run : Interleaving ⟨c, .scripted script⟩) : Prop where
  /-- No caller breaks down: it goes on, or has come to its end with credentials or an error. -/
  total : ∀ (n : Nat) (task : TaskId) (fault : Overflow),
    (run.moment n).callers task ≠ some (.failed fault)
  /-- At no moment do two callers await an answer of the provider. -/
  one : ∀ (n : Nat) (task other : TaskId), run.InFlight n task → run.InFlight n other →
    task = other
  /-- Whoever awaits an answer has asked the provider for it. -/
  asked : ∀ (n : Nat) (task : TaskId), run.InFlight n task →
    ∃ s answer, s < n ∧ run.Asks script s task answer
  /-- Apart from what happens outside, the provider changes only when a caller asks it. -/
  accounted : ∀ n, (run.moment (n + 1)).world.providers ≠ (run.moment n).world.providers →
    run.event n = .outside ∨ ∃ task answer, run.Asks script n task answer
  /-- A caller that is let in after an expiry, and comes to its end with credentials, has got those
  for which the provider was asked after the expiry. -/
  fresh : ∀ (k l n : Nat) (task : TaskId) (credentials : Credentials), run.event k = .expiry →
    k < l → ¬ run.Holds l task → run.Holds (l + 1) task →
    run.Returned n task (.ok credentials) →
      ∃ s other, k < s ∧ s < n ∧ run.Asks script s other (.ok credentials)
  /-- A caller that comes to its end with an error has left the gate at some moment. Then the cached
  credentials are what they were whenever the caller was inside, and an expiry is in force if one was
  in force, or came, at any moment at which the caller was inside. -/
  failed : ∀ (l : Nat) (task : TaskId) (error : CredentialsError),
    run.Returned l task (.error error) →
      ∃ n < l, run.Holds n task ∧ ¬ run.Holds (n + 1) task ∧ ∀ m, run.Holds m task →
        m ≤ n ∧ (run.cache (n + 1)).cached = (run.cache m).cached ∧
          ((run.cache m).forced = true ∨ run.event m = .expiry →
            (run.cache (n + 1)).forced = true)

namespace Staging

variable {run : Interleaving ⟨c, .scripted script⟩} {stage : Nat → TaskId → CacheStage}
  {b k l m n : Nat} {task : TaskId} {result answer : Retrieved} {credentials : Credentials}

/-- After an expiry, the cache is expired. -/
theorem cache_of_expiry (staging : run.Staging stage) (hexpiry : run.event n = .expiry) :
    run.cache (n + 1) = (run.cache n).expire := by
  have hnext := staging.next n
  rw [hexpiry] at hnext
  exact (staging.sound n).cache_of_expiry hnext

/-! ## Failures -/

/-- While a caller is inside the gate, what is cached stays, and so does an expiry. -/
theorem kept (staging : run.Staging stage) (hholds : run.Holds m task) (hmn : m ≤ n)
    (hlater : run.Holds n task) :
    (run.cache n).cached = (run.cache m).cached ∧
      ((run.cache m).forced = true → (run.cache n).forced = true ∨ (stage n task).Owes) := by
  induction n, hmn using Nat.le_induction with
  | base => exact ⟨rfl, .inl⟩
  | succ n hmn ih =>
    rcases staging.tracks.holds_or_gone hholds hmn with hstill | ⟨result, hgone⟩
    · obtain ⟨hcached, hforced⟩ := ih hstill
      rcases (staging.sound n).holder_next (staging.next n) hstill with ⟨-, hsame, hkept⟩ |
          ⟨result, hgone, -⟩
      · exact ⟨hsame.trans hcached, fun h => hkept (hforced h)⟩
      · exact absurd hlater (staging.not_holds hgone)
    · exact absurd hlater (staging.not_holds (staging.gone_of_le hgone (Nat.le_succ n)))

/-- A caller that leaves with an error keeps what is cached, and an expiry is in force. -/
theorem kept_of_failed (staging : run.Staging stage) {error : CredentialsError}
    (hholds : run.Holds n task) (hgone : stage (n + 1) task = .gone (.error error))
    (hm : run.Holds m task) :
    m ≤ n ∧ (run.cache (n + 1)).cached = (run.cache m).cached ∧
      ((run.cache m).forced = true → (run.cache (n + 1)).forced = true) := by
  have hmn : m ≤ n := by
    by_contra hlt
    exact staging.not_holds (staging.gone_of_le hgone (Nat.lt_of_not_le hlt)) hm
  obtain ⟨hcached, hforced⟩ := staging.kept hm hmn hholds
  rcases (staging.sound n).holder_next (staging.next n) hholds with ⟨hstays, -⟩ |
      ⟨result, hresult, hkept⟩
  · exact absurd hstays (staging.not_holds hgone)
  · obtain rfl : result = .error error := CacheStage.gone.inj (hresult.symm.trans hgone)
    obtain ⟨hsame, hinForce⟩ := hkept error rfl
    exact ⟨hmn, hsame.trans hcached, fun h => hinForce (hforced h)⟩

/-- An expiry that comes while a caller is inside is in force once the caller leaves with an
error. -/
theorem forced_of_failed (staging : run.Staging stage) {error : CredentialsError}
    (hholds : run.Holds n task) (hgone : stage (n + 1) task = .gone (.error error))
    (hm : run.Holds m task) (hexpiry : run.event m = .expiry) :
    (run.cache (n + 1)).forced = true := by
  have hcache := staging.cache_of_expiry hexpiry
  have hstays : run.Holds (m + 1) task := by
    rw [Holds, hcache]
    exact hm
  obtain ⟨-, -, hforced⟩ := staging.kept_of_failed hholds hgone hstays
  exact hforced (by rw [hcache]; rfl)

/-! ## Where credentials come from -/

/-- A caller that turns to the provider in a stride asks it there. -/
theorem asks (staging : run.Staging stage) (hevent : run.event n = .stride task)
    (hasked : (stage (n + 1) task).IsAsked)
    (hworld : (run.moment (n + 1)).world = ((run.moment n).world.askProvider script).1)
    (hanswer : (run.moment n).world.nextAnswer script = answer) :
    run.Asks script n task answer :=
  ⟨hevent, hworld, staging.inFlight_iff.mpr hasked, hanswer⟩

/-- A caller asks the provider in an interleaving as it does where nobody happens to be dropped. -/
theorem asks_of_interruptible (hasks : run.interruptible.Asks script n task answer) :
    run.Asks script n task answer :=
  ⟨Incident.event.inj hasks.incident, hasks.world, hasks.inFlight, hasks.answer⟩

/-- A caller that has just been let in has not decided what to do. -/
theorem atGate (staging : run.Staging stage) (hbefore : ¬ run.Holds n task)
    (hholds : run.Holds (n + 1) task) : stage (n + 1) task = .atGate :=
  staging.interruptible.atGate hbefore hholds

/-- Nobody is dropped, so no caller that has taken note of an expiry. -/
theorem not_dropsNoted : ¬ run.interruptible.DropsNoted k n := by
  rintro ⟨d, other, -, -, hdrop, -⟩
  cases hdrop

/-- A caller has asked for the answer that it has or awaits, after any moment at which it had not.
An expiry since then is in force. -/
theorem exists_asks (staging : run.Staging stage) (hbefore : (stage b task).answer? = none)
    (hbn : b ≤ n) (hanswer : (stage n task).answer? = some answer) :
    ∃ s, b ≤ s ∧ s < n ∧ run.Asks script s task answer ∧ ∀ m, s < m → m ≤ n →
      (run.cache m).forced = true → (run.cache n).forced = true := by
  obtain ⟨s, hbs, hsn, hasks, hforced⟩ := staging.interruptible.exists_asks hbefore hbn hanswer
  exact ⟨s, hbs, hsn, asks_of_interruptible hasks, hforced⟩

/-- A caller that was at the gate after an expiry leaves with no older credentials. -/
theorem exists_asks_of_yield (staging : run.Staging stage) (hexpiry : run.event k = .expiry)
    (hkb : k < b) (hatGate : stage b task = .atGate) (hbn : b ≤ n)
    (hyield : (stage n task).yield? = some credentials) :
    ∃ s other, k < s ∧ s < n ∧ run.Asks script s other (.ok credentials) := by
  have hincident : run.interruptible.incident k = .event .expiry := congrArg Incident.event hexpiry
  obtain ⟨s, other, hks, hsn, hasks⟩ := (staging.interruptible.exists_asks_of_yield hincident hkb
    hatGate hbn hyield).resolve_right not_dropsNoted
  exact ⟨s, other, hks, hsn, asks_of_interruptible hasks⟩

end Staging

/-- In every interleaving, no expiry by hand is lost. -/
theorem losesNoExpiry (run : Interleaving ⟨c, .scripted script⟩) : run.LosesNoExpiry := by
  obtain ⟨stage, staging⟩ := run.exists_staging
  constructor
  case total =>
    intro n task fault hfailed
    exact (staging.staged n).isAt task _ hfailed
  case one =>
    intro n task other htask hother
    have hholds (id : TaskId) (h : run.InFlight n id) : run.Holds n id := by
      obtain ⟨answer, hanswer⟩ := CacheStage.exists_answer (staging.inFlight_iff.mp h)
      exact staging.holds (CacheStage.isInside_of_answer hanswer)
    exact Option.some.inj ((hholds task htask).symm.trans (hholds other hother))
  case asked =>
    intro n task hinFlight
    obtain ⟨answer, hanswer⟩ := CacheStage.exists_answer (staging.inFlight_iff.mp hinFlight)
    have hstart : (stage 0 task).answer? = none := by rw [staging.start]; rfl
    obtain ⟨s, -, hsn, hasks, -⟩ := staging.exists_asks hstart (Nat.zero_le n) hanswer
    exact ⟨s, answer, hsn, hasks⟩
  case accounted =>
    intro n hchanged
    rcases (staging.next n).providers_cases with hsame | houtside | ⟨task, hevent, hasked, hworld⟩
    · exact absurd hsame hchanged
    · exact .inl houtside
    · exact .inr ⟨task, _, staging.asks hevent hasked hworld rfl⟩
  case fresh =>
    intro k l n task credentials hexpiry hkl hbefore hholds hreturned
    have hatGate := staging.atGate hbefore hholds
    have hgone := staging.gone hreturned
    have hln : l + 1 ≤ n := by
      by_contra hlt
      have hlate := staging.gone_of_le hgone (Nat.le_of_not_le hlt)
      rw [hatGate] at hlate
      cases hlate
    have hyield : (stage n task).yield? = some credentials := by rw [hgone]; rfl
    exact staging.exists_asks_of_yield hexpiry (Nat.lt_succ_of_lt hkl) hatGate hln hyield
  case failed =>
    intro l task error hreturned
    obtain ⟨n, hnl, hholds, hgone⟩ := staging.exists_leaving (staging.gone hreturned)
    refine ⟨n, hnl, hholds, staging.not_holds hgone, fun m hm => ?_⟩
    obtain ⟨hmn, hcached, hforced⟩ := staging.kept_of_failed hholds hgone hm
    refine ⟨hmn, hcached, ?_⟩
    rintro (hinForce | hexpiry)
    · exact hforced hinForce
    · exact staging.forced_of_failed hholds hgone hm hexpiry

/-- The credentials are expired by hand while caller 1 retrieves the first ones. Caller 2, which
waits meanwhile, retrieves others in vain, and so caller 3 retrieves the second ones. -/
def expiredMeanwhile : Interleaving ⟨0, .scripted 0⟩ :=
  let answers : List (Span × Retrieved) :=
    [(.ofSeconds 1, .ok (.ofKeys "first" "" none "")),
      (.ofSeconds 1, .error (.providerError "unavailable")),
      (.ofSeconds 1, .ok (.ofKeys "second" "" none ""))]
  .play _ { providers := [{ answers }], caches := [{}] } ⟨by simp, by simp⟩ Nat.zero_lt_one
    ([.call 1] ++ List.replicate 3 (.stride 1) ++ [.expiry, .call 2, .stride 2] ++
      List.replicate 4 (.stride 1) ++ List.replicate 6 (.stride 2) ++ [.call 3] ++
      List.replicate 7 (.stride 3)) (by decide +kernel)

/-- An expiry that comes while a retrieval is in flight is not lost: the next caller asks again, a
failure leaves the expiry pending, and the one after gets the credentials of after it. -/
theorem expiredMeanwhile_losesNoExpiry :
    expiredMeanwhile.event 4 = .expiry ∧ expiredMeanwhile.InFlight 5 1 ∧
      expiredMeanwhile.Returned 25 1 (.ok (.ofKeys "first" "" none "")) ∧
      expiredMeanwhile.Returned 25 2 (.error (.providerError "unavailable")) ∧
      expiredMeanwhile.Returned 25 3 (.ok (.ofKeys "second" "" none "")) ∧
      expiredMeanwhile.LosesNoExpiry :=
  ⟨rfl, ⟨_, rfl, trivial⟩, rfl, rfl, rfl, expiredMeanwhile.losesNoExpiry⟩

end CloudSession.Interleaving
