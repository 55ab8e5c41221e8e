/-!
# Warnings

What goes wrong without stopping the program is reported as a warning. `Logged` computations carry
the warnings raised on the way, oldest first.
-/

namespace CloudSession

/-- A condition that is reported and then lived with. -/
inductive Warning where
  /-- `[default]` of a config file gave way to `[profile default]`. -/
  | defaultProfileShadowed
  /-- A section of a config file lacks the `profile ` prefix. -/
  | profilePrefixMissing
  /-- The name of a profile is not an identifier. -/
  | profileNameInvalid (name : String)
  /-- The key of a property is not an identifier. -/
  | keyInvalid (key : String)
  /-- A path starts with `~` and the home directory is unknown. -/
  | homeUnknown
  /-- The environment names a profile file that does not exist. -/
  | overriddenFileMissing
  /-- An explicitly listed profile file does not exist. -/
  | fileMissing
  /-- A profile file exists and is not text. -/
  | fileUnreadable
  /-- A token refresh failed. -/
  | refreshFailed
  /-- Background refresh was started where no task can run. -/
  | noRuntime
  /-- The switch for the shared config file has a value that is not a boolean. -/
  | loadConfigNotBoolean
  /-- The session duration of a role is not a number. -/
  | durationInvalid
  /-- A request is signed with a token past its expiration. -/
  | tokenExpired
  deriving DecidableEq, Repr

/-- The wording of a warning. -/
def Warning.message : Warning → String
  | .defaultProfileShadowed =>
    "profile `default` ignored because `[profile default]` was found which takes priority"
  | .profilePrefixMissing =>
    "profile ignored: in config files, profiles MUST start with `profile `"
  | .profileNameInvalid name =>
    "profile ignored because `" ++ name ++ "` was not a valid identifier"
  | .keyInvalid key => "key ignored because `" ++ key ++ "` was not a valid identifier"
  | .homeUnknown => "could not determine home directory but home expansion was requested"
  | .overriddenFileMissing => "config file overridden via environment variable not found"
  | .fileMissing => "config file not found"
  | .fileUnreadable => "failed to read config file"
  | .refreshFailed => "token refresh failed"
  | .noRuntime => "no tokio runtime available, background token refresh not started"
  | .loadConfigNotBoolean => "AWS_SDK_LOAD_CONFIG is not a boolean, shared config stays disabled"
  | .durationInvalid => "ignoring invalid duration_seconds"
  | .tokenExpired =>
    "Signing a request with an IAM token that has already expired. " ++
      "The request will likely be rejected."

/-- A value together with the warnings raised while it was computed, oldest first. -/
structure Logged (α : Type) where
  value : α
  warnings : List Warning := []
  deriving Repr

namespace Logged

variable {α β : Type}

/-- What is done in two steps warns of what both warn of. -/
instance : Monad Logged where
  pure value := { value }
  bind x f :=
    let y := f x.value
    { value := y.value, warnings := x.warnings ++ y.warnings }

/-- Raises warnings. -/
def warn (warnings : List Warning) : Logged Unit :=
  { value := (), warnings }

/-- What is done without ado has its value. -/
@[simp] theorem value_pure (a : α) : (pure a : Logged α).value = a := rfl

/-- What is done in two steps has the value of the second. -/
@[simp] theorem value_bind (x : Logged α) (f : α → Logged β) :
    (x >>= f).value = (f x.value).value := rfl

/-- What is done without ado warns of nothing. -/
@[simp] theorem warnings_pure (a : α) : (pure a : Logged α).warnings = [] := rfl

/-- What is done in two steps has the warnings of both, in order. -/
@[simp] theorem warnings_bind (x : Logged α) (f : α → Logged β) :
    (x >>= f).warnings = x.warnings ++ (f x.value).warnings := rfl

end Logged

end CloudSession
