import CloudSession.Credentials.Error

/-!
# Roles

Keys of one account can be exchanged for short-lived keys of a role. The exchange is made by an
assumer; it may ask for a code from a second factor.
-/

namespace CloudSession

/-- What an assumer is asked for. -/
structure RoleRequest where
  roleArn : String
  sessionName : String
  externalId : Option String := none
  serialNumber : Option String := none
  /-- The code of the second factor. -/
  tokenCode : Option String := none
  duration : Span
  deriving DecidableEq, Repr

/-- Why there is no code of a second factor. -/
inductive MfaError where
  | notConfigured
  | failed (detail : String)
  deriving DecidableEq, Repr

/-- The wording of the error. -/
def MfaError.message : MfaError → String
  | .notConfigured => "An MFA token was requested but no provider was configured"
  | .failed detail => "An error occurred while fetching an MFA token: " ++ detail

/-- A role to assume. -/
structure Role where
  request : RoleRequest
  /-- What the second factor gives at first: a code, or why there is none. -/
  mfa : Except MfaError String := .error .notConfigured
  /-- How long before their expiry credentials already count as expired. -/
  expiryWindow : Span := Span.zero

namespace Role

/-- The name under which the credentials of roles are handed out. -/
def providerName : String := "AssumeRoleProvider"

/-- How long credentials of a role are to last unless another duration is asked for. -/
def defaultDuration : Span := Span.ofSeconds 900

/-- The name of a session that is given none: it tells when it was made. -/
def defaultSessionName (now : Instant) : String :=
  s!"cos-rust-sdk-{now.nanos.toNat}"

/-- A role; an empty session name, external ID or serial number counts as not given. -/
def make (now : Instant) (roleArn : String)
    (sessionName externalId serialNumber : Option String) (duration expiryWindow : Span)
    (mfa : Except MfaError String) : Role where
  request :=
    { roleArn
      sessionName := (sessionName.filter (· ≠ "")).getD (defaultSessionName now)
      externalId := externalId.filter (· ≠ "")
      serialNumber := serialNumber.filter (· ≠ "")
      duration }
  mfa
  expiryWindow

/-- The request as it is sent: with the code of the second factor, if the role needs one. -/
def completed (role : Role) (code : Except MfaError String) : Except MfaError RoleRequest :=
  match role.request.serialNumber with
  | none => .ok role.request
  | some _ => do return { role.request with tokenCode := some (← code) }

/-- Credentials as an assumer makes them, under the name for roles. -/
def handOut (assumed : Credentials) : Credentials :=
  let credentials :=
    Credentials.ofKeys assumed.accessKeyId assumed.secretAccessKey assumed.sessionToken?
      providerName
  match assumed.expiry with
  | some expiry => credentials.withExpiry expiry
  | none => credentials

/-- Whether credentials of the role that expire at `expiry` count as expired. Those without an expiry
do. -/
def isExpired (role : Role) (expiry : Option Instant) (now : Instant) : Except Overflow Bool :=
  match expiry with
  | none => .ok true
  | some expiry => do return expiry.atOrBefore (← now.later? role.expiryWindow)

end Role

end CloudSession
