import CloudSession.Environment
import CloudSession.Profile.Set

/-!
# Key pairs

HMAC keys as the environment and profiles give them. Half a pair is none.
-/

namespace CloudSession

/-- An access key with its secret, and possibly a session token. -/
structure KeyPair where
  accessKeyId : String
  secretAccessKey : String
  sessionToken : Option String := none
  deriving DecidableEq, Repr

namespace KeyPair

/-- A pair, if both halves are given and not empty; an empty session token counts as none. -/
def ofParts? (accessKeyId secretAccessKey sessionToken : Option String) : Option KeyPair := do
  let accessKeyId ← accessKeyId.filter (· ≠ "")
  let secretAccessKey ← secretAccessKey.filter (· ≠ "")
  some { accessKeyId, secretAccessKey, sessionToken := sessionToken.filter (· ≠ "") }

/-- The pair in the environment. -/
def ofEnvironment? (env : Environment) : Option KeyPair :=
  ofParts? (env.firstNonEmpty ["AWS_ACCESS_KEY_ID", "AWS_ACCESS_KEY"])
    (env.firstNonEmpty ["AWS_SECRET_ACCESS_KEY", "AWS_SECRET_KEY"])
    (env.firstNonEmpty ["AWS_SESSION_TOKEN"])

/-- The pair in a profile. -/
def ofProfile? (profile : Profile.Entry) : Option KeyPair :=
  ofParts? (profile.getNonEmpty? "aws_access_key_id")
    (profile.getNonEmpty? "aws_secret_access_key") (profile.getNonEmpty? "aws_session_token")

end KeyPair

end CloudSession
