import CloudSession.Provider.Retrieve
import CloudSession.Signing

/-!
# The signing stage

Before a request is sent, credentials are taken from a cache and the request is signed with them.
-/

namespace CloudSession

/-- Why a request is not signed. -/
inductive StageError where
  | signing (error : SigningError)
  | credentials (error : CredentialsError)
  deriving Repr

namespace StageError

/-- The stable code of the error. -/
def code : StageError → String
  | .signing error => error.code
  | .credentials error => error.code

/-- The wording of the error. -/
def message : StageError → String
  | .signing _ => "Signing failed"
  | .credentials _ => "Failed to load credentials from the credentials provider"

end StageError

/-- Signs a request with the credentials of a cache: the request as it is afterwards, and the scheme
or the error. -/
def signWith (credentials : CachedProvider) (signer : Option SigV4Signer) (region service : String)
    (request : Http.Request) : Activity (Http.Request × Except StageError SigningScheme) := do
  match ← credentials.get with
  | .error error => return (request, .error (.credentials error))
  | .ok credentials =>
    let world ← Activity.world
    let context : SigningContext := { time := world.now, region, service }
    Activity.modify (·.warnAll (Signing.warnings context credentials))
    let (signed, outcome) :=
      Signing.sign signer context credentials request world.libraries.isHeaderValue
    return (signed, outcome.mapError .signing)

end CloudSession
