import CloudSession.Proofs.Role.Staging

/-!
# Expired credentials of a role are never served

The expiry of the credentials is noted beside the role and the credentials are cached by those who
retrieve, in different strides and while the clock may be set at will. A caller that does not assume
the role itself nevertheless leaves only with the credentials of the last assumption, and only if
they did not count as expired when it looked; and a caller that retrieves in vain leaves both the
cached credentials and the noted expiry as they were.
-/

namespace CloudSession

namespace Interleaving

variable {cached : CachedRole}

/-- When the credentials of the role expire, as it is noted at a moment. -/
def noted (run : Interleaving cached.provider) (n : Nat) : Option Instant :=
  (run.moment n).world.noted cached.note

/-- The role is assumed after moment `s`, and from then on not again before moment `n`. -/
structure LastAssumed (run : Interleaving cached.provider) (s n : Nat) (assumed : Credentials) :
    Prop where
  before : s < n
  assumes : ∃ task, run.Assumes s task assumed
  last : ∀ m, s < m → m < n → ∀ task other, ¬ run.Assumes m task other

/-- After a moment, a caller inside the gate looks at what is cached: these credentials, and they
expire later than the expiry window from now. -/
structure FindsCurrent (run : Interleaving cached.provider) (k : Nat) (task : TaskId)
    (credentials : Credentials) : Prop where
  event : run.event k = .stride task
  holds : run.Holds k task
  found : (run.cache k).cached = some credentials
  current : ∃ expiry, credentials.expiry = some expiry ∧
    (run.moment k).world.now.nanos + cached.role.expiryWindow.nanos < expiry.nanos

/-- Throughout an interleaving, expired credentials of the role are not served. -/
structure ServesCurrent (run : Interleaving cached.provider) : Prop where
  /-- A caller that assumes the role, and comes to its end, has got the credentials of that. -/
  assumed : ∀ (s n : Nat) (task : TaskId) (assumed : Credentials) (result : Retrieved),
    run.Assumes s task assumed → run.Returned n task result →
      result = .ok (Role.handOut assumed)
  /-- A caller that does not assume the role, and comes to its end with credentials, has found them
  current at some moment `k`. They are those of the last assumption before the caller left the gate,
  which it did after moment `l`, and the role was assumed before `k`. -/
  served : ∀ (n : Nat) (task : TaskId) (credentials : Credentials),
    (∀ s assumed, ¬ run.Assumes s task assumed) → run.Returned n task (.ok credentials) →
      ∃ s k l assumed, s < k ∧ k < l ∧ l < n ∧ run.FindsCurrent k task credentials ∧
        run.Holds l task ∧ ¬ run.Holds (l + 1) task ∧ run.LastAssumed s (l + 1) assumed ∧
          credentials = Role.handOut assumed
  /-- A caller that comes to its end with an error has left the gate at some moment. Then the cached
  credentials and the noted expiry are what they were whenever the caller was inside. -/
  failed : ∀ (l : Nat) (task : TaskId) (error : CredentialsError),
    run.Returned l task (.error error) →
      ∃ n < l, run.Holds n task ∧ ¬ run.Holds (n + 1) task ∧ ∀ m, run.Holds m task →
        m ≤ n ∧ (run.cache (n + 1)).cached = (run.cache m).cached ∧
          run.noted (n + 1) = run.noted m

/-- The last assumption is still the last after a moment in which none was made. -/
theorem LastAssumed.succ {run : Interleaving cached.provider} {s n : Nat} {assumed : Credentials}
    (h : run.LastAssumed s n assumed) (hnot : ∀ task other, ¬ run.Assumes n task other) :
    run.LastAssumed s (n + 1) assumed := by
  refine ⟨Nat.lt_succ_of_lt h.before, h.assumes, fun m hsm hmn => ?_⟩
  rcases Nat.lt_succ_iff_lt_or_eq.mp hmn with hlt | rfl
  · exact h.last m hsm hlt
  · exact hnot

end Interleaving

namespace CachedRole.Staging

variable {cached : CachedRole} {run : Interleaving cached.provider}
  {stage : Nat → TaskId → CacheStage} {k l m n s : Nat} {task : TaskId} {answer : Retrieved}
  {credentials assumed : Credentials}

/-! ## The caller inside the gate -/

/-- A caller that has assumed the role goes on with the credentials, and leaves with them. -/
theorem answer_or_gone (staging : Staging run stage)
    (hanswer : (stage m task).answer? = some answer) (hmn : m ≤ n) :
    (stage n task).answer? = some answer ∨ stage n task = .gone answer := by
  induction n, hmn using Nat.le_induction with
  | base => exact .inl hanswer
  | succ n _ ih =>
    rcases ih with hstill | hgone
    · rcases staging.stage_cases n task with ⟨heq, -⟩ | ⟨-, -, step⟩
      · exact .inl (heq ▸ hstill)
      · rcases step.assumed (staging.sound n).known hstill with hlater | ⟨hgone, -⟩
        · exact .inl hlater
        · exact .inr hgone
    · exact .inr (staging.tracks.gone_of_le hgone (Nat.le_succ n))

/-- While a caller is inside the gate and does not assume the role, what is cached and what is noted
stay. -/
theorem kept (staging : Staging run stage) (hholds : run.Holds m task) (hmn : m ≤ n)
    (hlater : run.Holds n task) (hnone : (stage n task).answer? = none) :
    (run.cache n).cached = (run.cache m).cached ∧ run.noted n = run.noted m := by
  induction n, hmn using Nat.le_induction with
  | base => exact ⟨rfl, rfl⟩
  | succ n hmn ih =>
    have hbefore := staging.tracks.holds_between hholds hmn (Nat.le_succ n) hlater
    have hnot : (stage n task).answer? = none := by
      cases hanswer : (stage n task).answer? with
      | none => rfl
      | some answer =>
        rcases staging.answer_or_gone hanswer (Nat.le_succ n) with hstill | hgone
        · rw [hnone] at hstill
          cases hstill
        · exact absurd hlater (staging.tracks.not_holds hgone)
    obtain ⟨hcached, hnoted⟩ := ih hbefore hnot
    obtain ⟨hsame, hnote⟩ := (staging.next n).kept (staging.sound n) hbefore hnot
    exact ⟨hsame.trans hcached, hnote.trans hnoted⟩

/-! ## Where credentials come from -/

/-- Whoever assumes the role is inside the gate then. -/
theorem holds_of_assumes (staging : Staging run stage) (hassumes : run.Assumes n task assumed) :
    run.Holds (n + 1) task :=
  staging.tracks.holds (CacheStage.isInside_of_answer (staging.asked_of_assumes hassumes).2)

/-- A caller that does not assume the role has no answer. -/
theorem answer_eq_none (staging : Staging run stage)
    (hnever : ∀ s assumed, ¬ run.Assumes s task assumed) (n : Nat) :
    (stage n task).answer? = none := by
  induction n with
  | zero =>
    rw [staging.start]
    rfl
  | succ n ih =>
    rcases staging.stage_cases n task with ⟨heq, -⟩ | ⟨hevent, -, step⟩
    · rw [heq, ih]
    · cases hanswer : (stage (n + 1) task).answer? with
      | none => rfl
      | some answer =>
        rcases step.answer_cases hanswer with ⟨hbefore, -⟩ | ⟨hasked, -⟩
        · rw [ih] at hbefore
          cases hbefore
        · obtain ⟨assumed, hassumes, -⟩ := staging.exists_assumes hevent hasked
          exact absurd hassumes (hnever n assumed)

/-- The credentials of the last assumption are those with which the role was last assumed. -/
theorem exists_lastAssumed (staging : Staging run stage)
    (hcurrent : cached.Current ⟨(run.moment n).world, stage n⟩ credentials) :
    ∃ s assumed, run.LastAssumed s n assumed ∧ credentials = Role.handOut assumed := by
  induction n generalizing credentials with
  | zero => exact absurd hcurrent (staging.not_current_zero credentials)
  | succ n ih =>
    rcases (staging.next n).current_cases (staging.sound n) hcurrent with ⟨hbefore, hnot⟩ |
        ⟨task, hevent, hasked, hanswer⟩
    · obtain ⟨s, assumed, hlast, heq⟩ := ih hbefore
      refine ⟨s, assumed, hlast.succ fun task other hassumes => ?_, heq⟩
      exact hnot task hassumes.event (staging.asked_of_assumes hassumes).1
    · obtain ⟨assumed, hassumes, hassumed⟩ := staging.exists_assumes hevent hasked
      refine ⟨n, assumed, ⟨Nat.lt_succ_self n, ⟨task, hassumes⟩, fun m hnm hmn => by omega⟩, ?_⟩
      exact Except.ok.inj (Option.some.inj (hanswer.symm.trans hassumed))

/-- When the caller inside the gate has not decided what to do and the cached credentials do not
count as expired, they are those of the last assumption, and it is their own expiry that is not
reached. -/
theorem current_of_notExpired (staging : Staging run stage) (hatGate : stage n task = .atGate)
    (hholds : run.Holds n task) (hcached : (run.cache n).cached = some credentials)
    (hexpired : cached.role.isExpired (run.noted n) (run.moment n).world.now = .ok false) :
    cached.Current ⟨(run.moment n).world, stage n⟩ credentials ∧
      ∃ expiry, credentials.expiry = some expiry ∧
        (run.moment n).world.now.nanos + cached.role.expiryWindow.nanos < expiry.nanos := by
  have houtside (other : TaskId) : ¬ (stage n other).IsInside := by
    intro hinside
    obtain rfl : task = other := Option.some.inj (hholds.symm.trans (staging.tracks.holds hinside))
    rw [hatGate] at hinside
    exact hinside
  have hcurrent : cached.Current ⟨(run.moment n).world, stage n⟩ credentials := by
    refine .inr ⟨fun other => ?_, hcached⟩
    cases hanswer : (stage n other).answer? with
    | none => rfl
    | some answer => exact absurd (CacheStage.isInside_of_answer hanswer) (houtside other)
  have hsettled (other : TaskId) : ¬ (stage n other).IsAsked :=
    fun hasked => houtside other (CacheStage.isInside_of_isAsked hasked)
  obtain ⟨expiry, bound, hnoted, hbound, hlt⟩ := Role.isExpired_eq_false.mp hexpired
  have hexpiry := staging.agrees n hsettled credentials hcurrent expiry hnoted
  rw [Instant.later?_eq_ok hbound] at hlt
  exact ⟨hcurrent, expiry, hexpiry, hlt⟩

/-- A caller that knows credentials without having assumed the role has found them current, and they
are those of the last assumption before. -/
theorem exists_findsCurrent (staging : Staging run stage)
    (hnever : ∀ s assumed, ¬ run.Assumes s task assumed)
    (hyield : (stage n task).yield? = some credentials) :
    ∃ k < n, run.FindsCurrent k task credentials ∧
      cached.Current ⟨(run.moment k).world, stage k⟩ credentials := by
  induction n with
  | zero =>
    rw [staging.start] at hyield
    cases hyield
  | succ n ih =>
    have hearlier (h : (stage n task).yield? = some credentials) :
        ∃ k < n + 1, run.FindsCurrent k task credentials ∧
          cached.Current ⟨(run.moment k).world, stage k⟩ credentials := by
      obtain ⟨k, hkn, hk⟩ := ih h
      exact ⟨k, Nat.lt_succ_of_lt hkn, hk⟩
    rcases staging.stage_cases n task with ⟨heq, -⟩ | ⟨hevent, hadmitted, step⟩
    · exact hearlier (heq ▸ hyield)
    · rcases step.yield_cases hyield with h | hanswer | ⟨hatGate, hcached, hexpired⟩
      · exact hearlier h
      · rw [staging.answer_eq_none hnever n] at hanswer
        cases hanswer
      · have hholds : run.Holds n task :=
          (staging.sound n).holder_eq (by simp only [hatGate]; trivial) hadmitted
        obtain ⟨hcurrent, hexpiry⟩ := staging.current_of_notExpired hatGate hholds hcached hexpired
        exact ⟨n, Nat.lt_succ_self n, ⟨hevent, hholds, hcached, hexpiry⟩, hcurrent⟩

/-- The role is not assumed while another caller is inside the gate. -/
theorem lastAssumed_of_holds (staging : Staging run stage)
    (hnever : ∀ s assumed, ¬ run.Assumes s task assumed) (hlast : run.LastAssumed s k assumed)
    (hholds : run.Holds k task) (hkl : k ≤ l) (hlater : run.Holds l task) :
    run.LastAssumed s l assumed := by
  induction l, hkl using Nat.le_induction with
  | base => exact hlast
  | succ l hkl ih =>
    have hbefore := staging.tracks.holds_between hholds hkl (Nat.le_succ l) hlater
    refine (ih hbefore).succ fun other assumed hassumes => ?_
    obtain rfl : task = other :=
      Option.some.inj (hlater.symm.trans (staging.holds_of_assumes hassumes))
    exact hnever l assumed hassumes

end CachedRole.Staging

namespace Interleaving

variable {cached : CachedRole}

/-- In every interleaving, expired credentials of a cached role are not served. -/
theorem servesCurrent (run : Interleaving cached.provider) : run.ServesCurrent := by
  obtain ⟨stage, staging⟩ := CachedRole.exists_staging run
  constructor
  case assumed =>
    intro s n task assumed result hassumes hreturned
    have hgone := staging.gone hreturned
    obtain ⟨-, hanswer⟩ := staging.asked_of_assumes hassumes
    rcases Nat.le_total (s + 1) n with hsn | hns
    · rcases staging.answer_or_gone hanswer hsn with hstill | hleft
      · rw [hgone] at hstill
        cases hstill
      · exact CacheStage.gone.inj (hgone.symm.trans hleft)
    · rw [staging.tracks.gone_of_le hgone hns] at hanswer
      cases hanswer
  case served =>
    intro n task credentials hnever hreturned
    obtain ⟨l, hln, hevent, hleaves, hgone, step⟩ := staging.exists_leaving (staging.gone hreturned)
    have hyield : (stage l task).yield? = some credentials := by
      rcases step.yield_cases rfl with h | hanswer | ⟨hatGate, -⟩
      · exact h
      · rw [staging.answer_eq_none hnever l] at hanswer
        cases hanswer
      · have hinside := step.gone_cases.1
        rw [hatGate] at hinside
        exact hinside.elim
    obtain ⟨k, hkl, hfinds, hcurrent⟩ := staging.exists_findsCurrent hnever hyield
    obtain ⟨s, assumed, hlast, heq⟩ := staging.exists_lastAssumed hcurrent
    have hlater := staging.lastAssumed_of_holds hnever hlast hfinds.holds (Nat.le_of_lt hkl) hleaves
    have hstill : run.LastAssumed s (l + 1) assumed := by
      refine hlater.succ fun other others hassumes => ?_
      obtain rfl : task = other := Event.stride.inj (hevent.symm.trans hassumes.event)
      exact hnever l others hassumes
    have hleft := staging.tracks.not_holds hgone
    exact ⟨s, k, l, assumed, hlast.before, hkl, hln, hfinds, hleaves, hleft, hstill, heq⟩
  case failed =>
    intro l task error hreturned
    obtain ⟨n, hnl, -, hholds, hgone, step⟩ := staging.exists_leaving (staging.gone hreturned)
    have hnone := step.gone_cases.2 error rfl
    obtain ⟨hcached, hnoted⟩ := (staging.next n).kept (staging.sound n) hholds hnone
    refine ⟨n, hnl, hholds, staging.tracks.not_holds hgone, fun m hm => ?_⟩
    have hmn : m ≤ n := by
      by_contra hlt
      exact staging.tracks.not_holds (staging.tracks.gone_of_le hgone (by omega)) hm
    obtain ⟨hsame, hnote⟩ := staging.kept hm hmn hholds hnone
    exact ⟨hmn, hcached.trans hsame, hnoted.trans hnote⟩

/-- Keys that last until a hundred seconds after the epoch. -/
def shortLived (accessKeyId : String) : Credentials :=
  (Credentials.ofKeys accessKeyId "secret" none Role.providerName).withExpiry (.ofSeconds 100)

/-- The credentials of a role count as expired ten seconds before they expire. Caller 1 assumes the
role, and caller 2 is served what is cached. After an expiry by hand, caller 3 retrieves in vain,
and so caller 4 assumes the role again. -/
def renewedInVain :
    Interleaving (CachedRole.provider
      { cache := 0, note := 0, assumer := 0
        role :=
          { request :=
              { roleArn := "role", sessionName := "session", duration := Role.defaultDuration }
            expiryWindow := .ofSeconds 10 }
        source := .fixed (.ofKeys "account" "secret" none "")
        alone := by simp [Provider.Avoids] }) :=
  let answers : List (Except String Credentials) :=
    [.ok (shortLived "first"), .error "denied", .ok (shortLived "second")]
  .play _ { caches := [{}], roles := [none], assumers := [answers] } ⟨by simp, by simp⟩
    Nat.zero_lt_one
    ([.call 1] ++ List.replicate 6 (.stride 1) ++ [.call 2] ++ List.replicate 4 (.stride 2) ++
      [.expiry, .call 3] ++ List.replicate 5 (.stride 3) ++ [.call 4] ++
        List.replicate 6 (.stride 4)) (by decide +kernel)

/-- While the role cannot be renewed, callers get the credentials that are still current, and a
failure once they are not; when it can, they get new ones. -/
theorem renewedInVain_servesCurrent :
    renewedInVain.Returned 26 1 (.ok (shortLived "first")) ∧
      renewedInVain.FindsCurrent 9 2 (shortLived "first") ∧
      renewedInVain.Returned 26 2 (.ok (shortLived "first")) ∧
      renewedInVain.Returned 26 3 (.error (.providerError "denied")) ∧
      renewedInVain.Returned 26 4 (.ok (shortLived "second")) ∧ renewedInVain.ServesCurrent :=
  ⟨rfl, ⟨rfl, rfl, rfl, _, rfl, by decide⟩, rfl, rfl, rfl, renewedInVain.servesCurrent⟩

end Interleaving

end CloudSession
