import CloudSession.Token

/-!
# When tokens are refreshed

Two thresholds divide the life of a token. Up to the advisory refresh time the token is fresh; from
then on it is still handed out while a refresh is advised; past the mandatory refresh time it is
stale. Both times lie before the expiration by a span that depends on the lifetime.
-/

namespace CloudSession

/-- How long before the expiration a refresh time lies, for a lifetime. -/
abbrev RefreshThreshold := Span → Except Overflow Span

namespace RefreshThreshold

/-- A hundredth part of the lifetime, `n` times. -/
def percent (n : Nat) : RefreshThreshold := fun lifetime => do
  return (← lifetime.times? n).dividedBy 100

/-- The same span for every lifetime. -/
def constant (span : Span) : RefreshThreshold := fun _ => .ok span

/-- A quarter of the lifetime. -/
def defaultAdvisory : RefreshThreshold := fun lifetime => .ok (lifetime.dividedBy 4)

/-- Seventeen hundredths of the lifetime. -/
def defaultMandatory : RefreshThreshold := percent 17

end RefreshThreshold

/-- When tokens are refreshed, and how long that may take. -/
structure RefreshPolicy where
  advisory : RefreshThreshold := RefreshThreshold.defaultAdvisory
  mandatory : RefreshThreshold := RefreshThreshold.defaultMandatory
  timeout : Span := Span.ofSeconds 30

/-- The phases in the life of a token. -/
inductive Phase where
  /-- The token is handed out. -/
  | fresh
  /-- The token is handed out and should be refreshed. -/
  | advised
  /-- The token is not handed out. -/
  | stale
  deriving DecidableEq, Repr

/-- The time that lies before the expiration of a token by a threshold; the epoch, if there is no
such time. -/
def Token.refreshTime (token : Token) (threshold : RefreshThreshold) : Except Overflow Instant := do
  return token.expirationTime.earlierOrEpoch (← threshold token.lifetime)

namespace RefreshPolicy

/-- From when on a refresh is advised. -/
def advisoryTime (policy : RefreshPolicy) (token : Token) : Except Overflow Instant :=
  token.refreshTime policy.advisory

/-- From when on a refresh is mandatory. -/
def mandatoryTime (policy : RefreshPolicy) (token : Token) : Except Overflow Instant :=
  token.refreshTime policy.mandatory

/-- The phase of a token. The mandatory refresh time counts only past the advisory one. -/
def phase (policy : RefreshPolicy) (token : Token) (now : Instant) : Except Overflow Phase := do
  if now.atOrBefore (← policy.advisoryTime token) then
    return .fresh
  if now.atOrBefore (← policy.mandatoryTime token) then
    return .advised
  return .stale

end RefreshPolicy

end CloudSession
