import CloudSession.Proofs.TokenManager.Faults
import CloudSession.Proofs.TokenManager.RefreshTime

/-!
# The default refresh times

With the default thresholds, the advisory refresh time of a token can always be computed. The
mandatory one can be computed just for tokens that do not live too long, since their lifetime is
multiplied before it is divided. The two are in order then, and neither lies behind the expiration.
-/

namespace CloudSession

/-- The lifetime of the token is too long to be multiplied by seventeen. -/
def Token.LivesTooLong (token : Token) : Prop :=
  (RefreshThreshold.longestLifetime : Int) < token.expiresIn.toInt

namespace RefreshPolicy

variable {policy : RefreshPolicy} {token : Token}

/-- The thresholds are the default ones. -/
structure IsDefault (policy : RefreshPolicy) : Prop where
  advisory : policy.advisory = RefreshThreshold.defaultAdvisory
  mandatory : policy.mandatory = RefreshThreshold.defaultMandatory

/-- Both refresh times can be computed, the advisory one is no later than the mandatory one, and this
is no later than the expiration. -/
def AreOrdered (policy : RefreshPolicy) (token : Token) : Prop :=
  ∃ advisory mandatory, policy.advisoryTime token = .ok advisory ∧
    policy.mandatoryTime token = .ok mandatory ∧ advisory.nanos ≤ mandatory.nanos ∧
      mandatory.nanos ≤ token.expirationTime.nanos

/-- The advisory refresh time lies a quarter of the lifetime before the expiration. -/
theorem IsDefault.advisoryTime_eq (default : policy.IsDefault) (token : Token) :
    policy.advisoryTime token =
      .ok ⟨token.expirationTime.nanos - (token.lifetime.dividedBy 4).nanos⟩ := by
  have hquarter : policy.advisory token.lifetime = .ok (token.lifetime.dividedBy 4) := by
    rw [default.advisory, RefreshThreshold.defaultAdvisory]
  exact Token.refreshTime_eq hquarter (Nat.div_le_self _ _)

/-- Seventeen times the lifetime is a span just if the token does not live too long. -/
theorem times_seventeen_lt_limit_iff :
    token.lifetime.nanos * 17 < Span.limit ↔ ¬token.LivesTooLong := by
  rw [Token.LivesTooLong, RefreshThreshold.longestLifetime, Token.lifetime, Span.ofSeconds, Span.limit,
    Nat.mul_right_comm, Nat.mul_lt_mul_right (by decide), Int.not_lt]
  unfold wordCount
  omega

/-- The mandatory refresh time of a token that lives too long cannot be computed. -/
theorem IsDefault.mandatoryTime_eq_error (default : policy.IsDefault) (h : token.LivesTooLong) :
    policy.mandatoryTime token = .error .overflow := by
  have hlarge : ¬token.lifetime.nanos * 17 < Span.limit :=
    fun hlt => times_seventeen_lt_limit_iff.mp hlt h
  simp only [mandatoryTime, Token.refreshTime, default.mandatory, RefreshThreshold.defaultMandatory,
    RefreshThreshold.percent, Span.times?, if_neg hlarge]
  rfl

/-- The mandatory refresh time of any other token lies seventeen hundredths of the lifetime before the
expiration. -/
theorem IsDefault.mandatoryTime_eq (default : policy.IsDefault) (h : ¬token.LivesTooLong) :
    policy.mandatoryTime token =
      .ok ⟨token.expirationTime.nanos - (token.lifetime.nanos * 17 / 100 : Nat)⟩ := by
  have hsmall := times_seventeen_lt_limit_iff.mpr h
  have hpercent : policy.mandatory token.lifetime = .ok ⟨token.lifetime.nanos * 17 / 100⟩ := by
    rw [default.mandatory, RefreshThreshold.defaultMandatory, RefreshThreshold.percent, Span.times?,
      if_pos hsmall]
    rfl
  exact Token.refreshTime_eq hpercent (by dsimp only; omega)

/-- The default refresh times are in order just if the token does not live too long. -/
theorem IsDefault.areOrdered_iff (default : policy.IsDefault) :
    policy.AreOrdered token ↔ ¬token.LivesTooLong := by
  constructor
  · rintro ⟨-, mandatory, -, hmandatory, -⟩ hlong
    rw [default.mandatoryTime_eq_error hlong] at hmandatory
    cases hmandatory
  · intro hshort
    refine ⟨_, _, default.advisoryTime_eq token, default.mandatoryTime_eq hshort, ?_, ?_⟩
    · simp only [Span.dividedBy]
      omega
    · dsimp only
      omega

end RefreshPolicy

namespace TokenManager

variable {manager : TokenManager} {now : Instant}

/-- The cached token lives too long. -/
def HoldsTooLong (manager : TokenManager) : Prop :=
  ∃ token, manager.token = some token ∧ token.LivesTooLong

variable (default : manager.policy.IsDefault)
include default

/-- With the default thresholds, whether the token has expired is unclear just for one that lives too
long. -/
theorem isExpired_eq_error_iff :
    manager.isExpired now = .error .overflow ↔ manager.HoldsTooLong := by
  unfold isExpired HoldsTooLong
  cases htoken : manager.token with
  | none => simp
  | some token =>
    by_cases hlong : token.LivesTooLong
    · simp [default.mandatoryTime_eq_error hlong, hlong, bind, Except.bind]
    · simp [default.mandatoryTime_eq hlong, hlong, bind, Except.bind, pure, Except.pure]

/-- By the default thresholds, whoever will not take a stale token fails just where the token lives
too long. -/
theorem usable?_avoidStale_eq_error_iff :
    manager.usable? .avoidStale now = .error .overflow ↔ manager.HoldsTooLong := by
  unfold usable? HoldsTooLong
  cases htoken : manager.token with
  | none => simp
  | some token =>
    by_cases hlong : token.LivesTooLong
    · simp [serves, default.mandatoryTime_eq_error hlong, hlong, bind, Except.bind]
    · simp [serves, default.mandatoryTime_eq hlong, hlong, bind, Except.bind, pure, Except.pure]

/-- With the default thresholds, it is always clear whether a refresh is advised. -/
theorem usable?_followAdvice_ne_error :
    manager.usable? .followAdvice now ≠ .error .overflow := by
  unfold usable?
  cases htoken : manager.token with
  | none => simp
  | some token =>
    simp [serves, default.advisoryTime_eq token, bind, Except.bind, pure, Except.pure]

/-- With the default thresholds, the phase of the token is unclear just for one that lives too long and
is past its advisory refresh time. -/
theorem phase_eq_error_iff : manager.phase now = .error .overflow ↔
    ∃ token, manager.token = some token ∧ token.LivesTooLong ∧
      now.IsPast (manager.policy.advisoryTime token) := by
  unfold phase
  cases htoken : manager.token with
  | none => simp
  | some token =>
    have hadvisory := default.advisoryTime_eq token
    simp only [Option.some.injEq, exists_eq_left']
    rcases Instant.isWithin_or_isPast now hadvisory with hwithin | hpast
    · have hfresh := RefreshPolicy.phase_eq_ok_iff.mpr
        (show manager.policy.InPhase token now .fresh from hwithin)
      simp [hfresh, hwithin.not_isPast]
    · simp only [RefreshPolicy.phase_of_isPast hpast, hpast, and_true]
      by_cases hlong : token.LivesTooLong
      · simp [default.mandatoryTime_eq_error hlong, hlong, bind, Except.bind]
      · simp [default.mandatoryTime_eq hlong, hlong, bind, Except.bind, pure, Except.pure]

/-- With the default thresholds, it is always clear how long background refresh is to wait. -/
theorem backgroundWait_ne_error : manager.backgroundWait now ≠ .error .overflow := by
  unfold backgroundWait
  cases htoken : manager.token with
  | none => simp
  | some token => simp [default.advisoryTime_eq token, bind, Except.bind, pure, Except.pure]

end TokenManager

end CloudSession
