import CloudSession.Session.KeyPair
import CloudSession.Warning

/-!
# Settings in the environment

Some variables count only while the shared config file is enabled, which the environment decides
unless the caller does.
-/

namespace CloudSession

/-- Whether the shared config file is enabled. -/
inductive SharedConfigState where
  /-- The environment decides. -/
  | fromEnvironment
  | enabled
  | disabled
  deriving DecidableEq, Repr

/-- What the environment says about a session. -/
structure EnvironmentSettings where
  keys : Option KeyPair
  region : Option String
  profile : String
  sharedConfig : Bool
  /-- The path of a bundle of certificates. -/
  caBundle : Option String
  deriving DecidableEq, Repr

namespace EnvironmentSettings

/-- The variable that enables the shared config file. -/
def switch : String := "AWS_SDK_LOAD_CONFIG"

/-- What a value of the switch means; other texts mean nothing. -/
def boolean? (value : String) : Option Bool :=
  if value ∈ ["1", "t", "T", "true", "TRUE", "True"] then some true
  else if value ∈ ["", "0", "f", "F", "false", "FALSE", "False"] then some false
  else none

/-- What the environment says about the shared config file: it is disabled unless the switch is
on. -/
def switched (env : Environment) : Logged Bool :=
  match (env.get? switch).map boolean? with
  | none => pure false
  | some (some value) => pure value
  | some none => do
    Logged.warn [.loadConfigNotBoolean]
    pure false

/-- Whether the shared config file is enabled. -/
def isEnabled (env : Environment) : SharedConfigState → Logged Bool
  | .fromEnvironment => switched env
  | .enabled => pure true
  | .disabled => pure false

/-- The settings in the environment. The variables for default region and profile count only while the
shared config file is enabled. -/
def read (env : Environment) (sharedConfig : Bool) : EnvironmentSettings where
  keys := KeyPair.ofEnvironment? env
  region :=
    env.firstNonEmpty (if sharedConfig then ["AWS_REGION", "AWS_DEFAULT_REGION"] else ["AWS_REGION"])
  profile :=
    (env.firstNonEmpty
      (if sharedConfig then ["AWS_PROFILE", "AWS_DEFAULT_PROFILE"] else ["AWS_PROFILE"])).getD
      "default"
  sharedConfig
  caBundle := env.firstNonEmpty ["AWS_CA_BUNDLE"]

/-- The settings in the environment, with the profile that the caller names, if that is not empty. -/
def load (env : Environment) (state : SharedConfigState) (profile : Option String) :
    Logged EnvironmentSettings := do
  let settings := read env (← isEnabled env state)
  return { settings with profile := (profile.filter (· ≠ "")).getD settings.profile }

end EnvironmentSettings

end CloudSession
