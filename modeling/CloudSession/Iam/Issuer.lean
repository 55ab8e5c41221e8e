import CloudSession.Http.Message
import CloudSession.Iam.Form
import CloudSession.Iam.Reply
import CloudSession.Text.Blank
import CloudSession.Token
import CloudSession.Token.Error

/-!
# Token issuers

The token service issues a token in exchange for an API key, or for the compute resource token of a
workload. Both exchanges are one form sent and one record received.
-/

namespace CloudSession.Iam

/-- Where tokens are requested unless another place is configured. -/
def defaultEndpoint : String := "https://iam.cloud.ibm.com/identity/token"

/-- The configured endpoint; none or an empty one gives way to the default. -/
def endpointOrDefault (endpoint : Option String) : String :=
  (endpoint.filter (· ≠ "")).getD defaultEndpoint

/-- How the library of HTTP messages reads a URI. -/
abbrev UriReader := String → Except UriFault Uri

/-- How the library of JSON documents reads a document. -/
abbrev DocumentReader := List UInt8 → Option Document

/-- A request that sends a form to an endpoint. -/
def formRequest (readUri : UriReader) (endpoint : String) (fields : List (String × String)) :
    Except TokenError Http.Request :=
  match readUri endpoint with
  | .error fault => .error (.invalidRequest fault.message)
  | .ok uri =>
    .ok
      { method := "POST"
        uri
        headers :=
          [{ name := "content-type", value := "application/x-www-form-urlencoded" },
           { name := "accept", value := "application/json" }]
        body := Text.Utf8.encode (formBody fields) }

/-- The token of a reply; without a stated expiration it lives from the time of the request on. -/
def Reply.token (reply : Reply) (requestedAt : Instant) : Token :=
  match reply.expiration with
  | some expiration =>
    { access := reply.access
      refresh := reply.refresh
      type := reply.type
      expiresIn := reply.expiresIn
      expiration }
  | none => Token.issued reply.access reply.refresh reply.type reply.expiresIn requestedAt

/-- The token of a response to a request that was made at `requestedAt`. -/
def tokenOfResponse (readDocument : DocumentReader) (requestedAt : Instant)
    (response : Http.Response) : Except TokenError Token :=
  if !response.isSuccess then
    .error (.service response.status (Text.Utf8.decodeLossy response.body))
  else
    match (readDocument response.body).bind Reply.ofDocument? with
    | none => .error .invalidResponse
    | some reply => .ok (reply.token requestedAt)

/-- Exchanges an API key. -/
structure ApiKeyIssuer where
  apiKey : String
  endpoint : String
  deriving DecidableEq, Repr

/-- The request for a token. -/
def ApiKeyIssuer.request (issuer : ApiKeyIssuer) (readUri : UriReader) :
    Except TokenError Http.Request :=
  formRequest readUri issuer.endpoint
    [("grant_type", "urn:ibm:params:oauth:grant-type:apikey"), ("response_type", "cloud_iam"),
     ("apikey", issuer.apiKey)]

/-- Exchanges the compute resource token in a file for a token of a trusted profile. The file is read
for every request, since its contents change in place. -/
structure ContainerIssuer where
  tokenFile : String
  profileName : Option String := none
  profileId : Option String := none
  endpoint : String
  deriving DecidableEq, Repr

namespace ContainerIssuer

/-- An issuer for a trusted profile; empty names and IDs count as not given. -/
def make (tokenFile : String) (profileName profileId endpoint : Option String) : ContainerIssuer where
  tokenFile
  profileName := profileName.filter (· ≠ "")
  profileId := profileId.filter (· ≠ "")
  endpoint := endpointOrDefault endpoint

/-- The form that asks for a token in exchange for `resourceToken`. -/
def form (issuer : ContainerIssuer) (resourceToken : String) : List (String × String) :=
  [("grant_type", "urn:ibm:params:oauth:grant-type:cr-token"), ("cr_token", resourceToken)] ++
    (issuer.profileName.map fun name => ("profile_name", name)).toList ++
    (issuer.profileId.map fun id => ("profile_id", id)).toList

/-- The request for a token. -/
def request (issuer : ContainerIssuer) (files : FileStore) (readUri : UriReader) :
    Except TokenError Http.Request :=
  match files.readText issuer.tokenFile with
  | .error fault => .error (.tokenFile issuer.tokenFile fault)
  | .ok text => formRequest readUri issuer.endpoint (issuer.form (Text.trimmed text))

end ContainerIssuer

end CloudSession.Iam
