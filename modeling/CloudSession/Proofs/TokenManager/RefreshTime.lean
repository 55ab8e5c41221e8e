import CloudSession.TokenManager
import Mathlib.Tactic.Common

/-!
# The clock and the refresh times

What the phase of a token, the question whether it has expired and the look at it inside the gate
say about the clock and the two refresh times. With the default thresholds, the advisory refresh
time of a token comes no later than the mandatory one, unless its lifetime is too long to compute
with.
-/

namespace CloudSession

namespace Instant

/-- A time can be computed, and the clock has not passed it. -/
def IsWithin (now : Instant) (time : Except Overflow Instant) : Prop :=
  ∃ limit, time = .ok limit ∧ now.nanos ≤ limit.nanos

/-- A time can be computed, and the clock has passed it. -/
def IsPast (now : Instant) (time : Except Overflow Instant) : Prop :=
  ∃ limit, time = .ok limit ∧ limit.nanos < now.nanos

variable {now : Instant} {time : Except Overflow Instant}

/-- What is past a time is not within it. -/
theorem IsPast.not_isWithin (h : now.IsPast time) : ¬ now.IsWithin time := by
  rintro ⟨limit, hlimit, hle⟩
  obtain ⟨_, hsame, hlt⟩ := h
  rw [hlimit] at hsame
  rw [← Except.ok.inj hsame] at hlt
  omega

/-- What is within a time is not past it. -/
theorem IsWithin.not_isPast (h : now.IsWithin time) : ¬ now.IsPast time :=
  fun hpast => hpast.not_isWithin h

/-- Nothing is within a time that cannot be computed. -/
@[simp] theorem not_isWithin_error {fault : Overflow} : ¬ now.IsWithin (.error fault) := by
  rintro ⟨limit, ⟨⟩, -⟩

/-- Nothing is past a time that cannot be computed. -/
@[simp] theorem not_isPast_error {fault : Overflow} : ¬ now.IsPast (.error fault) := by
  rintro ⟨limit, ⟨⟩, -⟩

/-- A time is passed or not, unless it cannot be computed. -/
theorem isWithin_or_isPast (now : Instant) {limit : Instant} (h : time = .ok limit) :
    now.IsWithin time ∨ now.IsPast time := by
  by_cases hle : now.nanos ≤ limit.nanos
  · exact .inl ⟨limit, h, hle⟩
  · exact .inr ⟨limit, h, Int.not_le.mp hle⟩

/-- Comparing the clock with a time tells whether it has passed. -/
theorem atOrBefore_eq_true_iff :
    (do return now.atOrBefore (← time)) = Except.ok true ↔ now.IsWithin time := by
  cases time with
  | error fault => simp [IsWithin, bind, Except.bind]
  | ok limit => simp [IsWithin, bind, Except.bind, pure, Except.pure, atOrBefore]

/-- The comparison of times tells what is past. -/
theorem atOrBefore_eq_false_iff :
    (do return now.atOrBefore (← time)) = Except.ok false ↔ now.IsPast time := by
  cases time with
  | error fault => simp [IsPast, bind, Except.bind]
  | ok limit => simp [IsPast, bind, Except.bind, pure, Except.pure, atOrBefore]

end Instant

namespace RefreshPolicy

variable {policy : RefreshPolicy} {token : Token} {now : Instant} {phase : Phase}

/-- What the phase of a token says about the clock. Up to the advisory refresh time, the mandatory
one does not count. -/
def InPhase (policy : RefreshPolicy) (token : Token) (now : Instant) : Phase → Prop
  | .fresh => now.IsWithin (policy.advisoryTime token)
  | .advised => now.IsPast (policy.advisoryTime token) ∧ now.IsWithin (policy.mandatoryTime token)
  | .stale => now.IsPast (policy.advisoryTime token) ∧ now.IsPast (policy.mandatoryTime token)

/-- The phase of a token that is past its advisory refresh time depends on the mandatory one. -/
theorem phase_of_isPast (h : now.IsPast (policy.advisoryTime token)) :
    policy.phase token now =
      (do return if now.atOrBefore (← policy.mandatoryTime token) then .advised else .stale) := by
  obtain ⟨limit, hlimit, hlt⟩ := h
  simp only [RefreshPolicy.phase, hlimit, Instant.atOrBefore, Int.not_le.mpr hlt, bind, Except.bind,
    pure, Except.pure, decide_false, Bool.false_eq_true, if_false]
  cases policy.mandatoryTime token with
  | error fault => rfl
  | ok time =>
    by_cases hle : now.nanos ≤ time.nanos <;> simp [hle]

/-- The phase that is computed is the one that a token is in. -/
theorem phase_eq_ok_iff : policy.phase token now = .ok phase ↔ policy.InPhase token now phase := by
  cases hadvisory : policy.advisoryTime token with
  | error fault =>
    cases phase <;> simp [RefreshPolicy.phase, InPhase, hadvisory, bind, Except.bind]
  | ok advisory =>
    rcases Instant.isWithin_or_isPast now hadvisory with hwithin | hpast
    · have hphase : policy.phase token now = .ok .fresh := by
        obtain ⟨limit, hlimit, hle⟩ := hwithin
        simp [RefreshPolicy.phase, hlimit, hle, Instant.atOrBefore, bind, Except.bind, pure,
          Except.pure]
      rw [hphase]
      cases phase <;> simp [InPhase, hwithin, hwithin.not_isPast]
    · rw [phase_of_isPast hpast]
      have hnot := hpast.not_isWithin
      cases hmandatory : policy.mandatoryTime token with
      | error fault =>
        cases phase <;> simp [InPhase, hnot, hmandatory, bind, Except.bind]
      | ok mandatory =>
        rcases Instant.isWithin_or_isPast now hmandatory with hwithin | hlate
        · have hanswer := Instant.atOrBefore_eq_true_iff.mpr hwithin
          have hnotlate := hwithin.not_isPast
          rw [hmandatory] at hanswer
          cases phase <;> simp_all [InPhase, bind, Except.bind, pure, Except.pure]
        · have hanswer := Instant.atOrBefore_eq_false_iff.mpr hlate
          have hnotwithin := hlate.not_isWithin
          rw [hmandatory] at hanswer
          cases phase <;> simp_all [InPhase, bind, Except.bind, pure, Except.pure]

end RefreshPolicy

namespace TokenManager

variable {manager : TokenManager} {token : Token} {now : Instant} {purpose : Purpose}
  {timeOf : Token → Except Overflow Instant}

/-- The manager says that its token has not expired. -/
theorem isExpired_eq_false_iff : manager.isExpired now = .ok false ↔
    ∃ token, manager.token = some token ∧ now.IsWithin (manager.policy.mandatoryTime token) := by
  unfold isExpired
  cases htoken : manager.token with
  | none => simp
  | some token =>
    have hwithin : now.IsWithin (manager.policy.mandatoryTime token) ↔
        (do return now.atOrBefore (← manager.policy.mandatoryTime token)) = Except.ok true :=
      Instant.atOrBefore_eq_true_iff.symm
    cases htime : manager.policy.mandatoryTime token <;>
      simp_all [bind, Except.bind, pure, Except.pure]

/-- The manager says that it has no token, or that it has expired. -/
theorem isExpired_eq_true_iff : manager.isExpired now = .ok true ↔
    ∀ token, manager.token = some token → now.IsPast (manager.policy.mandatoryTime token) := by
  unfold isExpired
  cases htoken : manager.token with
  | none => simp
  | some token =>
    have hpast : now.IsPast (manager.policy.mandatoryTime token) ↔
        (do return now.atOrBefore (← manager.policy.mandatoryTime token)) = Except.ok false :=
      Instant.atOrBefore_eq_false_iff.symm
    cases htime : manager.policy.mandatoryTime token <;>
      simp_all [bind, Except.bind, pure, Except.pure]

/-- A token that does not serve a purpose is past the time that the purpose sets for it. -/
theorem isPast_of_usable
    (hserves : ∀ token, serves manager.policy token now purpose =
      (do return now.atOrBefore (← timeOf token)))
    (husable : manager.usable? purpose now = .ok none) (hcached : manager.token = some token) :
    now.IsPast (timeOf token) := by
  unfold usable? at husable
  rw [hcached] at husable
  cases hanswer : serves manager.policy token now purpose with
  | error fault => simp [hanswer, bind, Except.bind] at husable
  | ok answer =>
    cases answer with
    | true => simp [hanswer, bind, Except.bind, pure, Except.pure] at husable
    | false => exact Instant.atOrBefore_eq_false_iff.mp ((hserves token).symm.trans hanswer)

/-- A token that serves a purpose is not past the time that the purpose sets for it. -/
theorem isWithin_of_usable
    (hserves : ∀ token, serves manager.policy token now purpose =
      (do return now.atOrBefore (← timeOf token)))
    (husable : manager.usable? purpose now = .ok (some token))
    (hcached : manager.token = some token) :
    now.IsWithin (timeOf token) := by
  unfold usable? at husable
  rw [hcached] at husable
  cases hanswer : serves manager.policy token now purpose with
  | error fault => simp [hanswer, bind, Except.bind] at husable
  | ok answer =>
    cases answer with
    | true => exact Instant.atOrBefore_eq_true_iff.mp ((hserves token).symm.trans hanswer)
    | false => simp [hanswer, bind, Except.bind, pure, Except.pure] at husable

end TokenManager

section Default

variable {policy : RefreshPolicy} {token : Token} {now : Instant} {threshold : RefreshThreshold}
  {span : Span}

/-- A refresh time that is no further from the expiration than the token lives can be
represented. -/
theorem Token.refreshTime_eq (hspan : threshold token.lifetime = .ok span)
    (hle : span.nanos ≤ token.lifetime.nanos) :
    token.refreshTime threshold = .ok ⟨token.expirationTime.nanos - span.nanos⟩ := by
  have hlifetime := token.expiresIn.toInt_lt
  have hexpiration := token.expiration.toInt_lt
  have hrepresentable :
      Instant.isRepresentable (token.expirationTime.nanos - span.nanos) = true := by
    unfold Token.lifetime Span.ofSeconds nanosPerSecond at hle
    unfold Token.expirationTime Instant.ofSeconds Instant.isRepresentable signedLimit nanosPerSecond
    refine Bool.and_eq_true_iff.mpr ⟨decide_eq_true ?_, decide_eq_true ?_⟩
    · dsimp only at hle ⊢
      omega
    · dsimp only at hle ⊢
      omega
  simp [Token.refreshTime, hspan, Instant.earlierOrEpoch, hrepresentable, bind, Except.bind, pure,
    Except.pure]

/-- The longest lifetime, in seconds, with which the default thresholds can compute. -/
def RefreshThreshold.longestLifetime : Nat := (wordCount - 1) / 17

/-- A quarter is more than seventeen hundredths. -/
private theorem seventeen_hundredths_le (n : Nat) : n * 17 / 100 ≤ n / 4 := by
  omega

/-- With the default thresholds, a refresh is advised before it becomes mandatory. -/
theorem RefreshPolicy.advisory_le_mandatory
    (hadvisory : policy.advisory = RefreshThreshold.defaultAdvisory)
    (hmandatory : policy.mandatory = RefreshThreshold.defaultMandatory)
    (hlifetime : token.expiresIn.toInt ≤ RefreshThreshold.longestLifetime) :
    ∃ advisory mandatory, policy.advisoryTime token = .ok advisory ∧
      policy.mandatoryTime token = .ok mandatory ∧ advisory.nanos ≤ mandatory.nanos := by
  have hsmall : token.lifetime.nanos * 17 < Span.limit := by
    have hseconds : token.expiresIn.toInt.toNat * 17 < wordCount := by
      simp only [RefreshThreshold.longestLifetime, wordCount] at hlifetime ⊢
      omega
    rw [Token.lifetime, Span.ofSeconds, Span.limit, Nat.mul_right_comm]
    exact Nat.mul_lt_mul_of_pos_right hseconds (by decide)
  have hquarter : policy.advisory token.lifetime = .ok (token.lifetime.dividedBy 4) := by
    rw [hadvisory, RefreshThreshold.defaultAdvisory]
  have hpercent : policy.mandatory token.lifetime = .ok ⟨token.lifetime.nanos * 17 / 100⟩ := by
    rw [hmandatory, RefreshThreshold.defaultMandatory, RefreshThreshold.percent, Span.times?,
      if_pos hsmall]
    rfl
  have hless := seventeen_hundredths_le token.lifetime.nanos
  refine ⟨_, _, Token.refreshTime_eq hquarter (Nat.div_le_self _ _),
    Token.refreshTime_eq hpercent (Nat.le_trans hless (Nat.div_le_self _ _)), ?_⟩
  exact Int.sub_le_sub_left (Int.ofNat_le.mpr hless) _

/-- With the default thresholds, a token that is handed out is not past its mandatory refresh
time. -/
theorem RefreshPolicy.isWithin_of_default
    (hadvisory : policy.advisory = RefreshThreshold.defaultAdvisory)
    (hmandatory : policy.mandatory = RefreshThreshold.defaultMandatory)
    (hlifetime : token.expiresIn.toInt ≤ RefreshThreshold.longestLifetime) {phase : Phase}
    (hphase : policy.phase token now = .ok phase) (hne : phase ≠ .stale) :
    now.IsWithin (policy.mandatoryTime token) := by
  obtain ⟨advisory, mandatory, ha, hm, hle⟩ :=
    RefreshPolicy.advisory_le_mandatory hadvisory hmandatory hlifetime
  have hin := phase_eq_ok_iff.mp hphase
  cases phase with
  | fresh =>
    obtain ⟨limit, hlimit, hnow⟩ := hin
    rw [ha] at hlimit
    rw [← Except.ok.inj hlimit] at hnow
    exact ⟨mandatory, hm, Int.le_trans hnow hle⟩
  | advised => exact hin.2
  | stale => exact absurd rfl hne

end Default

end CloudSession
