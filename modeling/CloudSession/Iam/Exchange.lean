import CloudSession.Activity

/-!
# Exchanges with the token service

A token is requested and awaited, for as long as it takes.
-/

namespace CloudSession.Iam

/-- Sends a request and awaits the token. -/
def exchange (request : World → Except TokenError Http.Request) :
    Activity (Except TokenError Token) := do
  Activity.await (← Activity.update fun world => world.exchange (request world))

/-- Exchanges the API key for a token. -/
def ApiKeyIssuer.issue (issuer : ApiKeyIssuer) : Activity (Except TokenError Token) :=
  exchange fun world => issuer.request world.libraries.readUri

/-- Exchanges the compute resource token, as it is in its file now, for a token. -/
def ContainerIssuer.issue (issuer : ContainerIssuer) : Activity (Except TokenError Token) :=
  exchange fun world => issuer.request world.files world.libraries.readUri

end CloudSession.Iam
