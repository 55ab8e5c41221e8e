import CloudSession.Credentials
import CloudSession.Text.Quoted
import CloudSession.World

/-!
# Descriptions of values

Values are described for logs by their kind and their fields. Secrets never show.
-/

namespace CloudSession.Inspect

open Text

/-- What stands in place of a secret. -/
def redacted : String := quoted "** redacted **"

/-- A value with named fields. -/
def record (kind : String) (fields : List (String × String)) : String :=
  kind ++ " \x7b " ++ String.intercalate ", " (fields.map fun (name, value) => name ++ ": " ++ value)
    ++ " \x7d"

/-- A value that wraps another one. -/
def wrapped (kind value : String) : String :=
  kind ++ "(" ++ value ++ ")"

/-- A value that may be absent. -/
def optional (value : Option String) : String :=
  match value with
  | some value => wrapped "Some" value
  | none => "None"

/-- Decimal digits of `part` after the point, where one is `unit`, a power of ten; zeros at the end are
left out. -/
def fraction (part unit : Nat) : String :=
  let text := (Nat.toDigits 10 (unit + part)).drop 1
  let kept := (text.reverse.dropWhile (· = '0')).reverse
  if kept = [] then "" else "." ++ String.ofList kept

/-- A number of nanoseconds in a unit. -/
def inUnit (nanos unit : Nat) (name : String) : String :=
  toString (nanos / unit) ++ fraction (nanos % unit) unit ++ name

/-- A span in the largest unit that it fills. -/
def span (span : Span) : String :=
  if nanosPerSecond ≤ span.nanos then inUnit span.nanos nanosPerSecond "s"
  else if 1000000 ≤ span.nanos then inUnit span.nanos 1000000 "ms"
  else if 1000 ≤ span.nanos then inUnit span.nanos 1000 "µs"
  else inUnit span.nanos 1 "ns"

/-- A token without its secrets. -/
def token (token : Token) : String :=
  record "Token"
    [("access_token", redacted), ("refresh_token", redacted), ("token_type", quoted token.type),
     ("expires_in", toString token.expiresIn.toInt), ("expiration", toString token.expiration.toInt)]

/-- Credentials without their secrets. -/
def credentials (credentials : Credentials) : String :=
  let named := [("provider_name", quoted credentials.provider)]
  match credentials.secret with
  | .token value serviceInstance =>
    record "Credentials"
      (named ++ [("provider_type", "OAuth"), ("token", token value)] ++
        (serviceInstance.map fun id => ("service_instance_id", quoted id)).toList)
  | .keys accessKeyId _ _ =>
    record "Credentials"
      (named ++ [("provider_type", "Hmac"), ("access_key_id", quoted accessKeyId),
        ("secret_access_key", redacted)])

/-- An exchanger of API keys without its key. -/
def apiKeyIssuer (issuer : Iam.ApiKeyIssuer) : String :=
  record "ApiKeyTokenIssuer" [("api_key", redacted), ("endpoint", quoted issuer.endpoint)]

/-- An exchanger of compute resource tokens. -/
def containerIssuer (issuer : Iam.ContainerIssuer) : String :=
  record "ContainerTokenIssuer"
    [("cr_token_file", quoted issuer.tokenFile),
     ("profile_name", optional (issuer.profileName.map quoted)),
     ("profile_id", optional (issuer.profileId.map quoted)), ("endpoint", quoted issuer.endpoint)]

/-- An issuer that is a function of the caller. -/
def issuerFunction : String := "IssueTokenFn"

/-- An issuer that may be shared. -/
def sharedIssuer (issuer : String) : String :=
  wrapped "SharedTokenIssuer" issuer

/-- The token source of a token manager. -/
def issuer : Issuer → String
  | .absent => issuerFunction
  | .apiKey issuer => apiKeyIssuer issuer
  | .scripted _ => issuerFunction

/-- A token manager that may be shared. -/
def tokenManager (entry : Managed) : String :=
  wrapped "SharedTokenManager"
    (record "TokenManager"
      [("issuer", sharedIssuer (issuer entry.issuer)),
       ("token", optional (entry.manager.token.map token)),
       ("refresh_timeout", span entry.manager.policy.timeout)])

/-- An API key as the source of tokens, without the key. -/
def apiKeySource (endpoint : Option String) : String :=
  record "ApiKey" [("api_key", redacted), ("auth_endpoint", optional (endpoint.map quoted))]

/-- An issuer as the source of tokens. -/
def issuerSource (issuer : String) : String :=
  wrapped "Issuer" (sharedIssuer issuer)

/-- The name of a region. -/
def region (name : String) : String :=
  wrapped "Region" (quoted name)

/-- The name of a handler. -/
def handler (name : String) : String :=
  wrapped "NamedHandler" (quoted name)

end CloudSession.Inspect
