import CloudSession.Proofs.Interleaving.Interruption

/-!
# Expiries that are noted

A caller that is let in takes note of an expiry by hand, which is no longer in force from then on,
and answers for it: it retrieves, and puts the expiry back in force if that fails. As long as a caller
is inside the gate, an expiry comes from outside, and only that caller takes note of it. So an expiry
that is neither in force nor made good has been noted by the caller inside; and if that caller is
dropped, nobody answers for it any more.
-/

namespace CloudSession

variable {c script : Nat}

namespace CacheStage.Step

variable {me : TaskId} {world after : World} {stage later : CacheStage}

/-- A caller that does not leave puts no expiry in force. -/
theorem forced_cases (step : Step c script me world stage later after)
    (known : c < world.caches.length) (hforced : (after.cache c).forced = true) :
    (world.cache c).forced = true ∨ ∃ result, later = .gone result := by
  cases step with
  | stay => exact .inl hforced
  | arrive =>
    rw [World.cache_alterCache_self known] at hforced
    exact .inl hforced
  | decide hdecide =>
    rw [World.cache_alterCache_self known, CredentialsCache.eq_of_decide hdecide] at hforced
    exact absurd hforced Bool.false_ne_true
  | serve credentials => exact .inr ⟨_, rfl⟩
  | ask forced =>
    rw [World.cache_askProvider] at hforced
    exact .inl hforced
  | answer forced answer => exact .inl hforced
  | settle forced result => exact .inr ⟨_, rfl⟩

/-- A caller that has taken note of an expiry had before, or has just found it in force, and it is no
longer in force. -/
theorem owes_cases (step : Step c script me world stage later after)
    (known : c < world.caches.length) (howes : later.Owes) :
    stage.Owes ∨ stage = .atGate ∧ (world.cache c).forced = true ∧
      (after.cache c).forced = false := by
  cases step with
  | stay => exact .inl howes
  | @decide expired cache decision hdecide =>
    cases decision with
    | serve => exact howes.elim
    | retrieve forced =>
      obtain rfl : forced = true := howes
      refine .inr ⟨rfl, CredentialsCache.forced_of_decide hdecide, ?_⟩
      rw [World.cache_alterCache_self known, CredentialsCache.eq_of_decide hdecide]
  | ask forced => exact .inl howes
  | answer forced answer => exact .inl howes
  | _ => exact howes.elim

end CacheStage.Step

namespace Scene

variable {scene after : Scene} {incident : Incident} {task : TaskId}

/-- A caller that is dropped takes nothing of the cache with it but its place at the gate. -/
theorem Follows.cache_of_drop (follows : scene.Follows c script (.drop task) after) :
    after.world.cache c = (scene.world.cache c).leave task := by
  cases follows
  exact World.cache_release _ _ _

/-- After an expiry, the cache is expired. -/
theorem Sound.cache_of_follows_expiry (sound : scene.Sound c)
    (follows : scene.Follows c script (.event .expiry) after) :
    after.world.cache c = (scene.world.cache c).expire := by
  cases follows with
  | event next => exact sound.cache_of_expiry next

/-- Whoever is at a stage inside the gate has not left. -/
theorem Sound.ne_gone (sound : scene.Sound c)
    (hholder : (scene.world.cache c).gate.holder = some task) (result : Retrieved) :
    scene.stage task ≠ .gone result := by
  intro hgone
  have hpresent := (sound.admits.present task).mp (Gate.mem_callers.mpr (.inl hholder))
  rw [hgone] at hpresent
  exact hpresent

/-- While a caller is inside the gate, what is cached stays. An expiry by hand stays too, and comes
only from outside, unless the caller itself goes on. -/
theorem Sound.held_cases (sound : scene.Sound c)
    (follows : scene.Follows c script incident after)
    (hholder : (scene.world.cache c).gate.holder = some task)
    (hlater : (after.world.cache c).gate.holder = some task) :
    (after.world.cache c).cached = (scene.world.cache c).cached ∧
      ((after.world.cache c).forced = (scene.world.cache c).forced ∨
        incident = .event .expiry ∧ (after.world.cache c).forced = true ∨
          incident = .event (.stride task) ∧
            ((after.world.cache c).forced = true → (scene.world.cache c).forced = true)) := by
  have hstays := (sound.follows follows).ne_gone hlater
  cases follows with
  | drop other =>
    simp only [World.cache_release]
    exact ⟨rfl, .inl rfl⟩
  | event next =>
    obtain ⟨-, hcached, -⟩ | ⟨result, hgone, -⟩ := sound.holder_next next hholder
    swap
    · exact absurd hgone (hstays result)
    refine ⟨hcached, ?_⟩
    cases next with
    | outside outside => exact .inl (by rw [outside.cache_eq])
    | call => exact .inl rfl
    | expiry =>
      refine .inr (.inl ⟨rfl, ?_⟩)
      rw [World.cache_alterCache_self sound.known]
      rfl
    | @stride other stage world hadmitted step =>
      by_cases heq : other = task
      · subst heq
        refine .inr (.inr ⟨rfl, fun hforced => ?_⟩)
        refine (step.forced_cases sound.known hforced).resolve_right fun ⟨result, hgone⟩ => ?_
        exact hstays result (by simp only [Function.update_self, hgone])
      · have habsent : ¬ (scene.stage other).IsPresent := fun hpresent =>
          heq (Option.some.inj ((sound.holder_eq hpresent hadmitted).symm.trans hholder))
        exact .inl (step.memory_of_absent sound.known habsent).2

/-- An expiry by hand stays in force while a caller that has decided what to do is inside, unless
that caller is dropped. -/
theorem Sound.forced_follows (sound : scene.Sound c)
    (follows : scene.Follows c script incident after) (hinside : (scene.stage task).IsInside)
    (hforced : (scene.world.cache c).forced = true) : (after.world.cache c).forced = true := by
  cases follows with
  | event next => exact sound.forced_next next hinside hforced
  | drop other =>
    simp only [World.cache_release]
    exact hforced

/-- What is cached stays, and so does an expiry by hand, until a caller caches its answer, or is
dropped after it has taken note of the expiry. -/
theorem Sound.pending_follows (sound : scene.Sound c)
    (follows : scene.Follows c script incident after) :
    ((after.world.cache c).cached = (scene.world.cache c).cached ∧
        (scene.Pending c → after.Pending c ∨ ∃ task, incident = .drop task ∧
          (scene.stage task).Owes ∧ (scene.world.cache c).forced = false)) ∨
      ∃ task credentials, (scene.stage task).answer? = some (.ok credentials) ∧
        (after.world.cache c).cached = some credentials ∧
          (after.world.cache c).forced = (scene.world.cache c).forced := by
  cases follows with
  | event next =>
    exact (sound.pending_next next).imp_left fun ⟨hcached, hpending⟩ =>
      ⟨hcached, fun h => .inl (hpending h)⟩
  | drop other =>
    simp only [Pending, World.cache_release]
    refine .inl ⟨rfl, fun hpending => ?_⟩
    cases hforced : (scene.world.cache c).forced with
    | true => exact .inl (.inl hforced)
    | false =>
      obtain ⟨task, howes⟩ := hpending.resolve_left (by simp [hforced])
      by_cases heq : task = other
      · subst heq
        exact .inr ⟨task, rfl, howes, rfl⟩
      · exact .inl (.inr ⟨task, by rwa [Function.update_of_ne heq]⟩)

end Scene

namespace InterruptibleRun

variable {run : InterruptibleRun ⟨c, .scripted script⟩} {stage : Nat → TaskId → CacheStage}
  {b k m n : Nat} {task : TaskId} {result answer : Retrieved} {credentials : Credentials}

/-- Since it has been let in, a caller has taken note of an expiry, and none has come after that. -/
def HasNoted (run : InterruptibleRun ⟨c, .scripted script⟩) (n : Nat) (task : TaskId) : Prop :=
  ∃ d < n, run.incident d = .event (.stride task) ∧ run.HeldThrough d n task ∧
    (run.cache d).forced = true ∧ (run.cache (d + 1)).forced = false ∧
      ∀ k, d < k → k < n → run.incident k ≠ .event .expiry

/-- Between two moments, a caller is dropped that has taken note of an expiry. -/
def DropsNoted (run : InterruptibleRun ⟨c, .scripted script⟩) (k n : Nat) : Prop :=
  ∃ d task, k < d ∧ d < n ∧ run.incident d = .drop task ∧ run.HasNoted d task

/-- A drop that matters in a period matters in a longer one. -/
theorem DropsNoted.mono {l : Nat} (h : run.DropsNoted k m) (hlk : l ≤ k) (hmn : m ≤ n) :
    run.DropsNoted l n := by
  obtain ⟨d, task, hkd, hdm, hdrop⟩ := h
  exact ⟨d, task, by omega, by omega, hdrop⟩

/-- Whoever stays inside for a period stays inside for every part of it. -/
theorem HeldThrough.mono {l : Nat} (h : run.HeldThrough k n task) (hkl : k ≤ l) (hmn : m ≤ n) :
    run.HeldThrough l m task :=
  fun j hlj hjm => h j (hkl.trans hlj) (hjm.trans hmn)

/-- Whoever is still inside afterwards has stayed inside for longer. -/
theorem HeldThrough.succ (h : run.HeldThrough m n task) (hlater : run.Holds (n + 1) task) :
    run.HeldThrough m (n + 1) task := by
  intro k hmk hkn
  rcases Nat.le_succ_iff.mp hkn with hle | rfl
  · exact h k hmk hle
  · exact hlater

/-- Whoever has noted an expiry and is still inside has noted it, unless another expiry has come. -/
theorem HasNoted.succ (h : run.HasNoted n task) (hlater : run.Holds (n + 1) task)
    (hincident : run.incident n ≠ .event .expiry) : run.HasNoted (n + 1) task := by
  obtain ⟨d, hdn, hstride, hheld, hbefore, hafter, hnone⟩ := h
  refine ⟨d, Nat.lt_succ_of_lt hdn, hstride, hheld.succ hlater, hbefore, hafter, fun k hdk hkn => ?_⟩
  rcases Nat.lt_succ_iff_lt_or_eq.mp hkn with hlt | rfl
  · exact hnone k hdk hlt
  · exact hincident

namespace Staging

/-- At every moment, the scene is sound. -/
theorem sound (staging : run.Staging stage) (n : Nat) :
    Scene.Sound c ⟨(run.moment n).world, stage n⟩ := by
  induction n with
  | zero =>
    have hstage : stage 0 = fun _ => .away := funext staging.start
    rw [hstage]
    exact Scene.sound_of_untouched run.untouched run.known
  | succ n ih => exact ih.follows (staging.next n)

/-- Whoever is inside holds the gate. -/
theorem holds (staging : run.Staging stage) (hinside : (stage n task).IsInside) :
    run.Holds n task :=
  (staging.sound n).admits.inside task hinside

/-- After an expiry, one is pending. -/
theorem forced_of_expiry (staging : run.Staging stage) (hexpiry : run.incident n = .event .expiry) :
    (run.cache (n + 1)).forced = true := by
  have hnext := staging.next n
  rw [hexpiry] at hnext
  rw [cache, (staging.sound n).cache_of_follows_expiry hnext]
  rfl

/-- A caller stays at its stage, does a step, or is dropped. -/
theorem stage_cases (staging : run.Staging stage) (n : Nat) (task : TaskId) :
    stage (n + 1) task = stage n task ∨
      (run.incident n = .event (.stride task) ∧ ¬ (run.moment n).world.IsWaiting task ∧
        CacheStage.Step c script task (run.moment n).world (stage n task) (stage (n + 1) task)
          (run.moment (n + 1)).world) ∨
      run.incident n = .drop task ∧ stage (n + 1) task = .away :=
  (staging.next n).stage_cases task

/-- Whoever awaits an answer sleeps, and nobody else does. -/
theorem inFlight_iff (staging : run.Staging stage) :
    run.InFlight n task ↔ (stage n task).IsAsked :=
  (staging.staged n).asleep_iff

/-- A caller that has just been let in has not decided what to do. -/
theorem atGate (staging : run.Staging stage) (hbefore : ¬ run.Holds n task)
    (hholds : run.Holds (n + 1) task) : stage (n + 1) task = .atGate := by
  have houtside : ¬ (stage (n + 1) task).IsInside := by
    intro hinside
    rcases staging.stage_cases n task with heq | ⟨-, hadmitted, step⟩ | ⟨-, haway⟩
    · exact hbefore (staging.holds (heq ▸ hinside))
    · rcases step.inside_cases hinside with hinside' | hatGate
      · exact hbefore (staging.holds hinside')
      · exact hbefore ((staging.sound n).holder_eq (by simp only [hatGate]; trivial) hadmitted)
    · rw [haway] at hinside
      exact hinside
  have hpresent : (stage (n + 1) task).IsPresent :=
    ((staging.sound (n + 1)).admits.present task).mp (Gate.mem_callers.mpr (.inl hholds))
  generalize stage (n + 1) task = now at houtside hpresent ⊢
  cases now with
  | atGate => rfl
  | away => exact hpresent.elim
  | gone => exact hpresent.elim
  | _ => exact absurd trivial houtside

/-- A caller that answers for an expiry that is no longer in force has taken note of it. -/
theorem hasNoted (staging : run.Staging stage) (howes : (stage n task).Owes)
    (hforced : (run.cache n).forced = false) : run.HasNoted n task := by
  induction n with
  | zero =>
    rw [staging.start] at howes
    exact howes.elim
  | succ n ih =>
    have hlater := staging.holds (CacheStage.isInside_of_owes howes)
    have hearlier (howed : (stage n task).Owes) : run.HasNoted (n + 1) task := by
      have hbefore : (run.cache n).forced = false := by
        by_contra hinForce
        rw [Bool.not_eq_false] at hinForce
        have hstill := (staging.sound n).forced_follows (staging.next n)
          (CacheStage.isInside_of_owes howed) hinForce
        exact Bool.false_ne_true (hforced.symm.trans hstill)
      refine (ih howed hbefore).succ hlater fun hexpiry => ?_
      exact Bool.false_ne_true (hforced.symm.trans (staging.forced_of_expiry hexpiry))
    rcases staging.stage_cases n task with hsame | ⟨hstride, hadmitted, step⟩ | ⟨-, haway⟩
    · exact hearlier (hsame ▸ howes)
    · rcases step.owes_cases (staging.sound n).known howes with howed | ⟨hatGate, hbefore, hafter⟩
      · exact hearlier howed
      · have hholds : run.Holds n task :=
          (staging.sound n).holder_eq (by simp only [hatGate]; trivial) hadmitted
        refine ⟨n, Nat.lt_succ_self n, hstride, fun k hnk hkn => ?_, hbefore, hafter,
          fun k hnk hkn => absurd hkn (by omega)⟩
        rcases Nat.eq_or_lt_of_le hnk with rfl | hlt
        · exact hholds
        · obtain rfl : k = n + 1 := by omega
          exact hlater
    · rw [haway] at howes
      exact howes.elim

/-! ## Where credentials come from -/

/-- A caller that turns to the provider in a stride asks it there. -/
theorem asks (staging : run.Staging stage) (hincident : run.incident n = .event (.stride task))
    (hasked : (stage (n + 1) task).IsAsked)
    (hworld : (run.moment (n + 1)).world = ((run.moment n).world.askProvider script).1)
    (hanswer : (run.moment n).world.nextAnswer script = answer) :
    run.Asks script n task answer :=
  ⟨hincident, hworld, staging.inFlight_iff.mpr hasked, hanswer⟩

/-- A caller has asked for the answer that it has or awaits, after any moment at which it had not.
An expiry since then is in force. -/
theorem exists_asks (staging : run.Staging stage) (hbefore : (stage b task).answer? = none)
    (hbn : b ≤ n) (hanswer : (stage n task).answer? = some answer) :
    ∃ s, b ≤ s ∧ s < n ∧ run.Asks script s task answer ∧ ∀ m, s < m → m ≤ n →
      (run.cache m).forced = true → (run.cache n).forced = true := by
  induction n, hbn using Nat.le_induction with
  | base =>
    rw [hbefore] at hanswer
    cases hanswer
  | succ n hbn ih =>
    have hearlier (h : (stage n task).answer? = some answer) : ∃ s, b ≤ s ∧ s < n + 1 ∧
        run.Asks script s task answer ∧ ∀ m, s < m → m ≤ n + 1 →
          (run.cache m).forced = true → (run.cache (n + 1)).forced = true := by
      obtain ⟨s, hbs, hsn, hasks, hforced⟩ := ih h
      refine ⟨s, hbs, Nat.lt_succ_of_lt hsn, hasks, fun m hsm hmn hm => ?_⟩
      rcases Nat.le_succ_iff.mp hmn with hle | rfl
      · exact (staging.sound n).forced_follows (staging.next n) (CacheStage.isInside_of_answer h)
          (hforced m hsm hle hm)
      · exact hm
    rcases staging.stage_cases n task with heq | ⟨hincident, -, step⟩ | ⟨-, haway⟩
    · exact hearlier (heq ▸ hanswer)
    · rcases step.answer_cases hanswer with h | ⟨hasked, hworld, hnext⟩
      · exact hearlier h
      · refine ⟨n, hbn, Nat.lt_succ_self n, staging.asks hincident hasked hworld hnext, ?_⟩
        intro m hnm hmn hm
        obtain rfl : m = n + 1 := Nat.le_antisymm hmn hnm
        exact hm
    · rw [haway] at hanswer
      cases hanswer

/-- What is cached is an answer of the provider. An expiry since it was asked is in force or noted by
a caller, or a caller that had noted it has been dropped. -/
theorem exists_asks_of_cached (staging : run.Staging stage)
    (hcached : (run.cache n).cached = some credentials) :
    ∃ s other, s < n ∧ run.Asks script s other (.ok credentials) ∧ ∀ m, s ≤ m → m < n →
      (run.cache (m + 1)).forced = true →
        Scene.Pending c ⟨(run.moment n).world, stage n⟩ ∨ run.DropsNoted m n := by
  induction n with
  | zero =>
    have hempty : run.cache 0 = {} := run.untouched.cache_eq c
    rw [hempty] at hcached
    cases hcached
  | succ n ih =>
    rcases (staging.sound n).pending_follows (staging.next n) with ⟨hsame, hpending⟩ |
        ⟨other, fetched, hanswer, hfetched, hforced⟩
    · obtain ⟨s, other, hsn, hasks, hsince⟩ := ih (hsame.symm.trans hcached)
      refine ⟨s, other, Nat.lt_succ_of_lt hsn, hasks, fun m hsm hmn hm => ?_⟩
      rcases Nat.lt_succ_iff_lt_or_eq.mp hmn with hlt | rfl
      · rcases hsince m hsm hlt hm with hstill | hdrops
        · rcases hpending hstill with hlater | ⟨task, hdrop, howes, hgone⟩
          · exact .inl hlater
          · exact .inr ⟨n, task, hlt, Nat.lt_succ_self n, hdrop, staging.hasNoted howes hgone⟩
        · exact .inr (hdrops.mono le_rfl (Nat.le_succ n))
      · exact .inl (.inl hm)
    · obtain rfl : fetched = credentials := Option.some.inj (hfetched.symm.trans hcached)
      have hstart : (stage 0 other).answer? = none := by rw [staging.start]; rfl
      obtain ⟨s, -, hsn, hasks, hsince⟩ := staging.exists_asks hstart (Nat.zero_le n) hanswer
      refine ⟨s, other, Nat.lt_succ_of_lt hsn, hasks, fun m hsm hmn hm => .inl (.inl ?_)⟩
      rcases Nat.lt_succ_iff_lt_or_eq.mp hmn with hlt | rfl
      · exact hforced.trans (hsince (m + 1) (Nat.lt_succ_of_le hsm) hlt hm)
      · exact hm

/-- A caller inside the gate that finds credentials in force finds an answer for which the provider
was asked after every expiry so far, unless a caller that had noted one has been dropped. -/
theorem exists_asks_of_inForce (staging : run.Staging stage) (hatGate : stage n task = .atGate)
    (hholds : run.Holds n task) (hcached : (run.cache n).cached = some credentials)
    (hforced : (run.cache n).forced = false) (hexpiry : run.incident k = .event .expiry)
    (hkn : k < n) :
    (∃ s other, k < s ∧ s < n ∧ run.Asks script s other (.ok credentials)) ∨
      run.DropsNoted k n := by
  obtain ⟨s, other, hsn, hasks, hsince⟩ := staging.exists_asks_of_cached hcached
  rcases Nat.lt_or_ge k s with hks | hsk
  · exact .inl ⟨s, other, hks, hsn, hasks⟩
  · rcases hsince k hsk hkn (staging.forced_of_expiry hexpiry) with
      (hinForce | ⟨noting, howes⟩) | hdrops
    · exact absurd (hforced.symm.trans hinForce) Bool.false_ne_true
    · -- whoever has taken note of the expiry would be inside the gate
      have hinside := staging.holds (CacheStage.isInside_of_owes howes)
      obtain rfl : task = noting := Option.some.inj (hholds.symm.trans hinside)
      simp only [hatGate] at howes
      exact howes.elim
    · exact .inr hdrops

/-- A caller that was at the gate after an expiry leaves with no older credentials, unless a caller
that had noted it has been dropped. -/
theorem exists_asks_of_yield (staging : run.Staging stage)
    (hexpiry : run.incident k = .event .expiry) (hkb : k < b) (hatGate : stage b task = .atGate)
    (hbn : b ≤ n) (hyield : (stage n task).yield? = some credentials) :
    (∃ s other, k < s ∧ s < n ∧ run.Asks script s other (.ok credentials)) ∨
      run.DropsNoted k n := by
  induction n, hbn using Nat.le_induction with
  | base =>
    rw [hatGate] at hyield
    cases hyield
  | succ n hbn ih =>
    have hearlier (h : (∃ s other, k < s ∧ s < n ∧ run.Asks script s other (.ok credentials)) ∨
        run.DropsNoted k n) :
        (∃ s other, k < s ∧ s < n + 1 ∧ run.Asks script s other (.ok credentials)) ∨
          run.DropsNoted k (n + 1) := by
      rcases h with ⟨s, other, hks, hsn, hasks⟩ | hdrops
      · exact .inl ⟨s, other, hks, Nat.lt_succ_of_lt hsn, hasks⟩
      · exact .inr (hdrops.mono le_rfl (Nat.le_succ n))
    rcases staging.stage_cases n task with heq | ⟨-, hadmitted, step⟩ | ⟨-, haway⟩
    · exact hearlier (ih (heq ▸ hyield))
    · rcases step.yield_cases hyield with h | hanswer | ⟨hstill, hcached, hforced⟩
      · exact hearlier (ih h)
      · have hnone : (stage b task).answer? = none := by rw [hatGate]; rfl
        obtain ⟨s, hbs, hsn, hasks, -⟩ := staging.exists_asks hnone hbn hanswer
        exact .inl ⟨s, task, Nat.lt_of_lt_of_le hkb hbs, Nat.lt_succ_of_lt hsn, hasks⟩
      · have hholds : run.Holds n task :=
          (staging.sound n).holder_eq (by simp only [hstill]; trivial) hadmitted
        exact hearlier (staging.exists_asks_of_inForce hstill hholds hcached hforced hexpiry
          (Nat.lt_of_lt_of_le hkb hbn))
    · rw [haway] at hyield
      cases hyield

end Staging

end InterruptibleRun

end CloudSession
