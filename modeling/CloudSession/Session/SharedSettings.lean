import CloudSession.Session.Error
import CloudSession.Session.KeyPair
import CloudSession.Text.Count
import CloudSession.Time

/-!
# Settings in profile files

What the selected profile, merged from all files, says about a session: region, keys, and the role
that is to be assumed.
-/

namespace CloudSession

/-- What a profile says about a role. -/
structure RoleSettings where
  roleArn : Option String := none
  sourceProfile : Option String := none
  credentialSource : Option String := none
  externalId : Option String := none
  mfaSerial : Option String := none
  sessionName : Option String := none
  duration : Option Span := none
  deriving DecidableEq, Repr

/-- What the selected profile says about a session. -/
structure SharedSettings where
  region : Option String := none
  keys : Option KeyPair := none
  role : RoleSettings := {}
  /-- The keys of the source profile of the role. -/
  roleSource : Option KeyPair := none
  deriving DecidableEq, Repr

namespace RoleSettings

/-- How long credentials of the role are to last. What is no count of seconds counts as not given. -/
def durationOf (profile : Profile.Entry) : Logged (Option Span) :=
  match profile.getNonEmpty? "duration_seconds" with
  | none => pure none
  | some text =>
    match Text.count? text with
    | some seconds => pure (some (Span.ofSeconds seconds))
    | none => do
      Logged.warn [.durationInvalid]
      pure none

/-- What a profile says about a role. -/
def ofProfile (profile : Profile.Entry) : Logged RoleSettings := do
  return {
    roleArn := profile.getNonEmpty? "role_arn"
    sourceProfile := profile.getNonEmpty? "source_profile"
    credentialSource := profile.getNonEmpty? "credential_source"
    externalId := profile.getNonEmpty? "external_id"
    mfaSerial := profile.getNonEmpty? "mfa_serial"
    sessionName := profile.getNonEmpty? "role_session_name"
    duration := ← durationOf profile }

end RoleSettings

namespace SharedSettings

/-- The keys for a role, which has to name a source profile that has some. A profile without a role,
or without a source profile, needs none. -/
def roleSourceOf (set : Profile.ProfileSet) (role : RoleSettings) :
    Except SessionError (Option KeyPair) :=
  match role.roleArn, role.sourceProfile with
  | some roleArn, some source =>
    match (set.profile? source).bind KeyPair.ofProfile? with
    | some keys => .ok (some keys)
    | none => .error (.roleSourceUnset roleArn)
  | _, _ => .ok none

/-- What a profile of a set says about a session. A profile that is missing says nothing. -/
def ofProfile (set : Profile.ProfileSet) (name : String) :
    Logged (Except SessionError SharedSettings) :=
  match set.profile? name with
  | none => pure (.ok {})
  | some profile => do
    let role ← RoleSettings.ofProfile profile
    return do
      let roleSource ← roleSourceOf set role
      return {
        region := profile.getNonEmpty? "region"
        keys := KeyPair.ofProfile? profile
        role
        roleSource }

/-- What a profile says about a session, with all files merged. -/
def load (env : Environment) (files : FileStore) (listed : Nat → Profile.Enumeration)
    (sources : List Profile.Source) (name : String) :
    Logged (Except SessionError SharedSettings) := do
  match ← Profile.load env files sources (some name) listed with
  | .error error => return .error (.sharedConfig error)
  | .ok set => ofProfile set name

end SharedSettings

end CloudSession
