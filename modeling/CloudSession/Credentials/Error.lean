import CloudSession.Credentials
import CloudSession.Token.Error

/-!
# Credentials errors

Why a provider cannot be built, and why a retrieval yields no credentials.
-/

namespace CloudSession

/-- Why a provider cannot be built. The fault is permanent: every retrieval reports it again. -/
inductive BuildError where
  /-- No path to the compute resource token is configured. -/
  | tokenFileUnset
  /-- Neither name nor ID of a trusted profile is configured. -/
  | trustedProfileUnset
  /-- The place named `origin` holds no API key. -/
  | apiKeyUnset (origin : String)
  /-- The shared file cannot be loaded, or lacks the profile. -/
  | sharedFile (detail : String)
  deriving DecidableEq, Repr

namespace BuildError

/-- The stable code of the error. -/
def code : BuildError → String
  | .tokenFileUnset => "crTokenFilePathNotFound"
  | .trustedProfileUnset => "trustedProfileNotFound"
  | .apiKeyUnset _ => "IbmApiKeyIdNotFound"
  | .sharedFile _ => "SharedCredsLoad"

/-- What the error says after its code. -/
def detail : BuildError → String
  | .tokenFileUnset => "CR token file path not found"
  | .trustedProfileUnset => "trusted profile name or trusted profile ID not found"
  | .apiKeyUnset origin => "IBM API key ID not found in " ++ origin
  | .sharedFile detail => detail

/-- The wording of the error. -/
def message (error : BuildError) : String :=
  error.code ++ ": " ++ error.detail

end BuildError

/-- What an error was caused by. -/
inductive Cause where
  | token (error : TokenError)
  | text (message : String)
  deriving DecidableEq, Repr

/-- The wording of a cause. -/
def Cause.message : Cause → String
  | .token error => error.message
  | .text message => message

/-- Why a retrieval yields no credentials. -/
inductive CredentialsError where
  /-- The provider could not be built. -/
  | invalidProvider (provider : String) (error : BuildError)
  /-- The provider got no token. -/
  | tokenRetrieve (provider : String) (cause : Cause)
  /-- A source that should hold credentials holds none. -/
  | notLoaded (code detail : String)
  /-- The provider took longer than allowed. -/
  | timedOut (after : Span)
  /-- The provider failed. -/
  | providerError (detail : String)
  /-- Every provider of a chain failed; `errors` are the failures, if they are to be told. -/
  | noValidProviders (errors : List CredentialsError)
  /-- Something unexpected happened. -/
  | unhandled (detail : String)
  deriving Repr, Inhabited

namespace CredentialsError

/-- The stable code of the error. -/
def code : CredentialsError → String
  | .invalidProvider _ error => error.code
  | .tokenRetrieve _ _ => "TokenManagerRetrieveError"
  | .notLoaded code _ => code
  | .timedOut _ => "ProviderTimedOut"
  | .providerError _ => "ProviderError"
  | .noValidProviders _ => "NoCredentialProviders"
  | .unhandled _ => "Unhandled"

mutual

/-- The wording of the error. -/
def message : CredentialsError → String
  | .invalidProvider provider error => s!"{provider} is not valid: {error.message}"
  | .tokenRetrieve provider _ =>
    s!"TokenManagerRetrieveError: error retrieving the token for {provider}"
  | .notLoaded code detail => code ++ ": " ++ detail
  | .timedOut after => s!"Credentials provider timed out after {after.seconds} seconds"
  | .providerError detail => "An error occurred while loading credentials: " ++ detail
  | .noValidProviders errors =>
    "NoCredentialProviders: no valid providers in chain" ++ listing errors
  | .unhandled detail => "Unexpected credentials error: " ++ detail

/-- The errors, each on an indented line of its own. -/
def listing : List CredentialsError → String
  | [] => ""
  | error :: rest => "\n\t" ++ message error ++ listing rest

end

/-- What the error was caused by. -/
def cause? : CredentialsError → Option Cause
  | .invalidProvider _ error => some (.text error.message)
  | .tokenRetrieve _ cause => some cause
  | .providerError detail => some (.text detail)
  | .unhandled detail => some (.text detail)
  | _ => none

end CredentialsError

/-- The outcome of a retrieval. -/
abbrev Retrieved := Except CredentialsError Credentials

end CloudSession
