import CloudSession.Environment
import CloudSession.Time

/-!
# Token errors

Why no token could be obtained, with a stable code and a wording for each cause.
-/

namespace CloudSession

/-- Why no token could be obtained. -/
inductive TokenError where
  /-- The token request cannot be built. -/
  | invalidRequest (detail : String)
  /-- The token request cannot be sent. -/
  | dispatch (detail : String)
  /-- The token service refuses the request. -/
  | service (status : Nat) (body : String)
  /-- The answer of the token service is no token. -/
  | invalidResponse
  /-- The compute resource token cannot be read. -/
  | tokenFile (path : String) (fault : ReadFault)
  /-- The token source does not answer in time. -/
  | timeout (after : Span)
  /-- A token source of the caller fails. -/
  | issuer (detail : String)
  deriving DecidableEq, Repr

namespace TokenError

/-- The stable code of the error. -/
def code : TokenError → String
  | .invalidRequest _ => "InvalidTokenRequest"
  | .dispatch _ => "RequestError"
  | .service _ _ => "ServiceError"
  | .invalidResponse => "SerializationError"
  | .tokenFile _ _ => "CrTokenFileReadError"
  | .timeout _ => "TokenRefreshTimeout"
  | .issuer _ => "TokenSourceError"

/-- The wording of the error. -/
def message : TokenError → String
  | .invalidRequest detail => "failed to build token request: " ++ detail
  | .dispatch detail => "failed to send token request: " ++ detail
  | .service status body => s!"token service responded with status {status}: {body}"
  | .invalidResponse => "invalid token response"
  | .tokenFile path fault => s!"failed to read CR token file {path}: {fault.message}"
  | .timeout after => s!"token refresh timed out after {after.seconds} seconds"
  | .issuer detail => "token source failed: " ++ detail

end TokenError

end CloudSession
