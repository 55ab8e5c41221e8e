import CloudSession.Proofs.Interleaving.Noted
import Mathlib.Tactic.IntervalCases

/-!
# Dropped callers

A caller that is dropped goes away from the gate, and whoever waits there moves up. What is cached
stays, as it has since the caller was let in. But an expiry by hand that the caller has taken note of
is gone with it, unless another one has come since: nobody answers for it any more, and the next
caller is served what is cached. This is the only way in which an expiry is lost.
-/

namespace CloudSession

variable {c script : Nat}

/-- Whatever comes next, the first of those at the gate is inside. -/
theorem Scene.Sound.served_follows {scene after : Scene} {incident : Incident}
    (sound : scene.Sound c) (follows : scene.Follows c script incident after)
    (served : (scene.world.cache c).gate.IsServed) : (after.world.cache c).gate.IsServed := by
  cases follows with
  | drop task =>
    simp only [World.cache_release]
    exact served.leave task
  | event next =>
    cases next with
    | outside outside => rwa [outside.cache_eq]
    | call => exact served
    | expiry =>
      rw [World.cache_alterCache_self sound.known]
      exact served
    | stride hadmitted step =>
      rcases step.gate_cases sound.known with hsame | harrive | hleave
      · rwa [hsame]
      · rw [harrive]
        exact Gate.isServed_arrive _ _
      · rw [hleave]
        exact served.leave _

/-- A caller that has come to its end does nothing any more, and is not dropped. -/
theorem Snapshot.Follows.finished {cached : CachedProvider} {now after : Snapshot}
    {incident : Incident} {task : TaskId} {result : Retrieved}
    (follows : now.Follows cached incident after)
    (hfinished : now.callers task = some (.finished result)) :
    after.callers task = some (.finished result) := by
  have hother {other : TaskId} {turn : Option (Turn Retrieved)} (hturn : now.callers other = turn)
      (hne : turn ≠ some (.finished result)) (turn' : Option (Turn Retrieved)) :
      Function.update now.callers other turn' task = some (.finished result) := by
    rw [Function.update_of_ne ?_, hfinished]
    rintro rfl
    exact hne (hturn.symm.trans hfinished)
  cases follows with
  | drop hrest => exact hother hrest (by simp) _
  | event next =>
    cases next with
    | outside => exact hfinished
    | call hnone => exact hother hnone (by simp) _
    | expiry => exact hfinished
    | stride hrest => exact hother hrest (by simp) _

namespace InterruptibleRun

variable {run : InterruptibleRun ⟨c, .scripted script⟩} {stage : Nat → TaskId → CacheStage}
  {k l m n : Nat} {task : TaskId} {result : Retrieved} {credentials : Credentials}

/-- After a moment at which it is dropped, the cache is as if the caller had never come. -/
structure IsHarmless (run : InterruptibleRun ⟨c, .scripted script⟩) (n : Nat) (task : TaskId) :
    Prop where
  /-- What is cached is what it was. -/
  cached : (run.cache (n + 1)).cached = (run.cache n).cached
  /-- It is what it was since the caller was let in. -/
  kept : ∀ m ≤ n, run.HeldThrough m n task → (run.cache (n + 1)).cached = (run.cache m).cached
  /-- The others are at the gate, in order. -/
  callers : (run.cache (n + 1)).gate.callers = (run.cache n).gate.callers.erase task
  /-- The first of them is inside. -/
  served : (run.cache (n + 1)).gate.IsServed
  /-- As long as the caller waits, it has nothing to do with expiries by hand. -/
  waiting : ¬ run.Holds n task → (run.cache (n + 1)).forced = (run.cache n).forced
  /-- Once it is inside, an expiry is in force exactly if one was, or has come since. -/
  pending : ∀ m ≤ n, run.HeldThrough m n task → ((run.cache (n + 1)).forced = true ↔
    (run.cache m).forced = true ∨ ∃ k, m ≤ k ∧ k < n ∧ run.incident k = .event .expiry)

/-- What the drops of callers do in a run. -/
structure LosesNoted (run : InterruptibleRun ⟨c, .scripted script⟩) : Prop where
  /-- A caller can be dropped without harm exactly if it has not taken note of an expiry, or another
  one has come since. -/
  harmless : ∀ n task, run.incident n = .drop task →
    (run.IsHarmless n task ↔ ¬ run.HasNoted n task)
  /-- A caller that is let in after an expiry, and comes to its end with credentials, has got those
  for which the provider was asked after the expiry, unless a caller has been dropped since that had
  taken note of an expiry. -/
  fresh : ∀ k l n task credentials, run.incident k = .event .expiry → k < l →
    ¬ run.Holds l task → run.Holds (l + 1) task → run.Returned n task (.ok credentials) →
      (∃ s other, k < s ∧ s < n ∧ run.Asks script s other (.ok credentials)) ∨
        run.DropsNoted k n

namespace Staging

/-- A caller that is dropped leaves the gate, and nothing else about the cache changes. -/
theorem cache_of_drop (staging : run.Staging stage) (hdrop : run.incident n = .drop task) :
    run.cache (n + 1) = (run.cache n).leave task := by
  have hnext := staging.next n
  rw [hdrop] at hnext
  exact hnext.cache_of_drop

/-- At every moment, nobody waits at the gate without somebody inside. -/
theorem served (staging : run.Staging stage) (n : Nat) : (run.cache n).gate.IsServed := by
  induction n with
  | zero =>
    have hempty : run.cache 0 = {} := run.untouched.cache_eq c
    rw [hempty]
    rfl
  | succ n ih => exact (staging.sound n).served_follows (staging.next n) ih

/-! ## While a caller is inside -/

/-- While a caller stays inside, what is cached stays, and the expiry is pending as before, unless
another comes or the caller takes note of it. -/
theorem held_cases (staging : run.Staging stage) (hmn : m ≤ n)
    (hheld : run.HeldThrough m (n + 1) task) :
    (run.cache (n + 1)).cached = (run.cache n).cached ∧
      ((run.cache (n + 1)).forced = (run.cache n).forced ∨
        run.incident n = .event .expiry ∧ (run.cache (n + 1)).forced = true ∨
          run.incident n = .event (.stride task) ∧
            ((run.cache (n + 1)).forced = true → (run.cache n).forced = true)) :=
  (staging.sound n).held_cases (staging.next n) (hheld n hmn (Nat.le_succ n))
    (hheld (n + 1) (Nat.le_succ_of_le hmn) le_rfl)

/-- While a caller stays inside, what is cached stays. -/
theorem cached_of_held (staging : run.Staging stage) (hmn : m ≤ n)
    (hheld : run.HeldThrough m n task) : (run.cache n).cached = (run.cache m).cached := by
  induction n, hmn using Nat.le_induction with
  | base => rfl
  | succ n hmn ih =>
    have hcached := (staging.held_cases hmn hheld).1
    exact hcached.trans (ih (hheld.mono le_rfl (Nat.le_succ n)))

/-- An expiry that is in force was so before, or has come since. -/
theorem forced_or_expiry (staging : run.Staging stage) (hmn : m ≤ n)
    (hheld : run.HeldThrough m n task) (hforced : (run.cache n).forced = true) :
    (run.cache m).forced = true ∨ ∃ k, m ≤ k ∧ k < n ∧ run.incident k = .event .expiry := by
  induction n, hmn using Nat.le_induction with
  | base => exact .inl hforced
  | succ n hmn ih =>
    have hbefore (h : (run.cache n).forced = true) : (run.cache m).forced = true ∨
        ∃ k, m ≤ k ∧ k < n + 1 ∧ run.incident k = .event .expiry :=
      (ih (hheld.mono le_rfl (Nat.le_succ n)) h).imp_right fun ⟨k, hmk, hkn, hexpiry⟩ =>
        ⟨k, hmk, Nat.lt_succ_of_lt hkn, hexpiry⟩
    rcases (staging.held_cases hmn hheld).2 with hsame | ⟨hexpiry, -⟩ | ⟨-, hstill⟩
    · exact hbefore (hsame ▸ hforced)
    · exact .inr ⟨n, hmn, Nat.lt_succ_self n, hexpiry⟩
    · exact hbefore (hstill hforced)

/-- An expiry that was in force is so still, or the caller inside has taken note of it. -/
theorem forced_or_hasNoted (staging : run.Staging stage) (hmn : m ≤ n)
    (hheld : run.HeldThrough m n task) (hforced : (run.cache m).forced = true) :
    (run.cache n).forced = true ∨ run.HasNoted n task := by
  induction n, hmn using Nat.le_induction with
  | base => exact .inl hforced
  | succ n hmn ih =>
    cases hafter : (run.cache (n + 1)).forced with
    | true => exact .inl rfl
    | false =>
      have hnone : run.incident n ≠ .event .expiry := fun hexpiry =>
        Bool.false_ne_true (hafter.symm.trans (staging.forced_of_expiry hexpiry))
      refine .inr ?_
      rcases ih (hheld.mono le_rfl (Nat.le_succ n)) with hbefore | hnoted
      · -- only the caller itself can have taken note of the expiry
        rcases (staging.held_cases hmn hheld).2 with hsame | ⟨hexpiry, -⟩ | ⟨hstride, -⟩
        · exact absurd (hafter.symm.trans (hsame.trans hbefore)) Bool.false_ne_true
        · exact absurd hexpiry hnone
        · exact ⟨n, Nat.lt_succ_self n, hstride, hheld.mono hmn le_rfl, hbefore, hafter,
            fun k hnk hkn => absurd hkn (by omega)⟩
      · exact hnoted.succ (hheld (n + 1) (Nat.le_succ_of_le hmn) le_rfl) hnone

/-- What a caller has taken note of is not in force. -/
theorem forced_of_hasNoted (staging : run.Staging stage) (hnoted : run.HasNoted n task) :
    (run.cache n).forced = false := by
  obtain ⟨d, hdn, -, hheld, -, hafter, hnone⟩ := hnoted
  by_contra hforced
  rw [Bool.not_eq_false] at hforced
  rcases staging.forced_or_expiry hdn (hheld.mono (Nat.le_succ d) le_rfl) hforced with
    hbefore | ⟨k, hdk, hkn, hexpiry⟩
  · exact Bool.false_ne_true (hafter.symm.trans hbefore)
  · exact hnone k hdk hkn hexpiry

/-! ## Drops -/

/-- A caller that answers for no expiry is dropped without harm. -/
theorem isHarmless (staging : run.Staging stage) (hdrop : run.incident n = .drop task)
    (hnoted : ¬ run.HasNoted n task) : run.IsHarmless n task := by
  have hcache := staging.cache_of_drop hdrop
  refine ⟨by rw [hcache]; rfl, fun m hmn hheld => ?_, ?_, staging.served (n + 1),
    fun _ => by rw [hcache]; rfl, fun m hmn hheld => ?_⟩
  · rw [hcache]
    exact staging.cached_of_held hmn hheld
  · rw [hcache]
    exact Gate.leave_callers _ _
  · rw [hcache]
    constructor
    · exact staging.forced_or_expiry hmn hheld
    · rintro (hforced | ⟨k, hmk, hkn, hexpiry⟩)
      · exact (staging.forced_or_hasNoted hmn hheld hforced).resolve_right hnoted
      · have hsince := hheld.mono (Nat.le_succ_of_le hmk) le_rfl
        exact (staging.forced_or_hasNoted hkn hsince
          (staging.forced_of_expiry hexpiry)).resolve_right hnoted

/-- A caller that answers for an expiry takes it along. -/
theorem not_isHarmless (staging : run.Staging stage) (hdrop : run.incident n = .drop task)
    (hnoted : run.HasNoted n task) : ¬ run.IsHarmless n task := by
  intro harmless
  have hlost := staging.forced_of_hasNoted hnoted
  obtain ⟨d, hdn, -, hheld, hbefore, -⟩ := hnoted
  have hstill := (harmless.pending d hdn.le hheld).mpr (.inl hbefore)
  rw [staging.cache_of_drop hdrop] at hstill
  exact Bool.false_ne_true (hlost.symm.trans hstill)

end Staging

/-- A caller that has got a result keeps it. -/
theorem returned_of_le (run : InterruptibleRun ⟨c, .scripted script⟩)
    (hreturned : run.Returned n task result) (hnm : n ≤ m) : run.Returned m task result := by
  induction m, hnm using Nat.le_induction with
  | base => exact hreturned
  | succ m _ ih => exact (run.next m).finished ih

/-- In every run, expiries by hand are lost with callers that have taken note of them, and in no other
way. -/
theorem losesNoted (run : InterruptibleRun ⟨c, .scripted script⟩) : run.LosesNoted := by
  obtain ⟨stage, staging⟩ := run.exists_staging
  constructor
  case harmless =>
    intro n task hdrop
    exact ⟨fun harmless hnoted => staging.not_isHarmless hdrop hnoted harmless,
      staging.isHarmless hdrop⟩
  case fresh =>
    intro k l n task credentials hexpiry hkl hbefore hholds hreturned
    have hatGate := staging.atGate hbefore hholds
    have hgone {m : Nat} (h : run.Returned m task (.ok credentials)) :
        stage m task = .gone (.ok credentials) :=
      (staging.staged m).isAt task _ h
    have hln : l + 1 ≤ n := by
      by_contra hlt
      have hlate := hgone (run.returned_of_le hreturned (Nat.le_of_not_le hlt))
      rw [hatGate] at hlate
      cases hlate
    have hyield : (stage n task).yield? = some credentials := by rw [hgone hreturned]; rfl
    exact staging.exists_asks_of_yield hexpiry (Nat.lt_succ_of_lt hkl) hatGate hln hyield

/-- Caller 1 retrieves the first credentials, which are then expired by hand. Caller 2 takes note of
the expiry and awaits others, and caller 3 waits behind it. Both are dropped, and caller 4 is served
the first credentials. -/
def droppedInFlight : InterruptibleRun ⟨0, .scripted 0⟩ :=
  let answers : List (Span × Retrieved) :=
    [(.ofSeconds 1, .ok (.ofKeys "first" "" none "")),
      (.ofSeconds 1, .ok (.ofKeys "second" "" none ""))]
  .play _ { providers := [{ answers }], caches := [{}] } ⟨by simp, by simp⟩ Nat.zero_lt_one
    ([.event (.call 1)] ++ List.replicate 7 (.event (.stride 1)) ++
      [.event .expiry, .event (.call 2)] ++ List.replicate 3 (.event (.stride 2)) ++
      [.event (.call 3), .event (.stride 3), .drop 3, .drop 2, .event (.call 4)] ++
      List.replicate 4 (.event (.stride 4))) (by decide +kernel)

/-- The caller had taken note of the expiry when it was dropped. -/
theorem droppedInFlight_hasNoted : droppedInFlight.HasNoted 16 2 := by
  refine ⟨11, by decide, rfl, fun k hk hk' => ?_, rfl, rfl, fun k hk hk' => ?_⟩
  · interval_cases k <;> rfl
  · interval_cases k <;> exact nofun

/-- A caller that waits at the gate is dropped without harm, and one that is in flight takes the
expiry along: the next caller is served the credentials of before. -/
theorem droppedInFlight_losesNoted :
    droppedInFlight.incident 8 = .event .expiry ∧ droppedInFlight.InFlight 16 2 ∧
      droppedInFlight.incident 15 = .drop 3 ∧ droppedInFlight.IsHarmless 15 3 ∧
      droppedInFlight.incident 16 = .drop 2 ∧ ¬ droppedInFlight.IsHarmless 16 2 ∧
      droppedInFlight.Returned 22 4 (.ok (.ofKeys "first" "" none "")) ∧
      droppedInFlight.LosesNoted := by
  have hwaits : ¬ droppedInFlight.Holds 15 3 := by
    intro hholds
    have hother : droppedInFlight.Holds 15 2 := rfl
    exact absurd (Option.some.inj (hother.symm.trans hholds)) (by decide)
  have hnothing : ¬ droppedInFlight.HasNoted 15 3 := fun ⟨_, hd, _, hheld, _⟩ =>
    hwaits (hheld 15 hd.le le_rfl)
  have losesNoted := droppedInFlight.losesNoted
  exact ⟨rfl, ⟨_, rfl, trivial⟩, rfl, (losesNoted.harmless 15 3 rfl).mpr hnothing, rfl,
    fun harmless => (losesNoted.harmless 16 2 rfl).mp harmless droppedInFlight_hasNoted, rfl,
    losesNoted⟩

end InterruptibleRun

end CloudSession
