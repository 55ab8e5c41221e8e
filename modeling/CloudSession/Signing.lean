import CloudSession.Credentials
import CloudSession.Http.Message
import CloudSession.Warning

/-!
# Signing requests

A token is sent along in the `authorization` header. Keys sign the request by a procedure that the
caller supplies.
-/

namespace CloudSession

/-- Why a request cannot be signed. -/
inductive SigningError where
  /-- There are keys and no procedure to sign with them. -/
  | noSigV4Signer
  /-- A part of the credentials is no header value. -/
  | invalidHeaderValue
  /-- The procedure of the caller fails. -/
  | sigV4 (detail : String)
  deriving DecidableEq, Repr

namespace SigningError

/-- The stable code of the error. -/
def code : SigningError → String
  | .noSigV4Signer => "NoSigV4Signer"
  | .invalidHeaderValue => "InvalidHeaderValue"
  | .sigV4 _ => "SigningFailure"

/-- The wording of the error. -/
def message : SigningError → String
  | .noSigV4Signer => "HMAC credentials require a SigV4 signer but none was configured"
  | .invalidHeaderValue => "credential material is not a valid header value"
  | .sigV4 _ => "SigV4 signing failed"

end SigningError

/-- What a signature depends on beside the credentials and the request. -/
structure SigningContext where
  time : Instant
  region : String
  service : String
  deriving DecidableEq, Repr

/-- A procedure that signs a request with keys, or says why it cannot; it may change the request in
either case. -/
abbrev SigV4Signer :=
  SigningContext → Credentials → Http.Request → Http.Request × Except String Unit

namespace Signing

/-- The header that names the service instance. -/
def instanceHeader : String := "ibm-service-instance-id"

/-- Names the service instance in a request. What can be the value of a header is up to the library of
HTTP messages. -/
def addInstance (isHeaderValue : String → Bool) (request : Http.Request) :
    Option String → Http.Request × Except SigningError SigningScheme
  | none => (request, .ok .bearer)
  | some id =>
    if isHeaderValue id then
      (request.setHeader { name := instanceHeader, value := id }, .ok .bearer)
    else
      (request, .error .invalidHeaderValue)

/-- Sends a token along with a request. The token is put in before the service instance is looked
at. -/
def signBearer (isHeaderValue : String → Bool) (token : Token) (serviceInstance : Option String)
    (request : Http.Request) : Http.Request × Except SigningError SigningScheme :=
  if isHeaderValue token.authorization then
    addInstance isHeaderValue
      (request.setHeader
        { name := "authorization", value := token.authorization, sensitive := true })
      serviceInstance
  else
    (request, .error .invalidHeaderValue)

/-- Signs a request with the procedure of the caller. -/
def signWithKeys (signer : Option SigV4Signer) (context : SigningContext)
    (credentials : Credentials) (request : Http.Request) :
    Http.Request × Except SigningError SigningScheme :=
  match signer with
  | none => (request, .error .noSigV4Signer)
  | some sign =>
    match sign context credentials request with
    | (signed, .ok ()) => (signed, .ok .sigV4)
    | (changed, .error detail) => (changed, .error (.sigV4 detail))

/-- Signs a request: the request as it is afterwards, and the scheme or the error. -/
def sign (signer : Option SigV4Signer) (context : SigningContext) (credentials : Credentials)
    (request : Http.Request) (isHeaderValue : String → Bool := Http.isHeaderValue) :
    Http.Request × Except SigningError SigningScheme :=
  match credentials.secret with
  | .token token serviceInstance => signBearer isHeaderValue token serviceInstance request
  | .keys .. => signWithKeys signer context credentials request

/-- The warnings about signing with these credentials: a token should not have expired. -/
def warnings (context : SigningContext) (credentials : Credentials) : List Warning :=
  match credentials.token? with
  | some token => if token.expirationTime.atOrBefore context.time then [.tokenExpired] else []
  | none => []

end Signing

end CloudSession
