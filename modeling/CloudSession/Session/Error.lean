import CloudSession.Endpoint.Resolver
import CloudSession.Profile.Load

/-!
# Session errors

Why there is no session, or no client of one.
-/

namespace CloudSession

/-- What is wrong with a bundle of certificates. -/
inductive CaBundleFault where
  /-- The HTTP client of the caller cannot be told whom to trust. -/
  | clientGiven
  | unreadable
  | invalid
  deriving DecidableEq, Repr

/-- The wording of the fault. -/
def CaBundleFault.message : CaBundleFault → String
  | .clientGiven => "unable to load custom CA bundle, HTTPClient's transport unsupported type"
  | .unreadable => "failed to open custom CA bundle PEM file"
  | .invalid => "failed to load custom CA bundle PEM file"

/-- Why there is no session, or no client of one. -/
inductive SessionError where
  /-- The profile names both a source profile and a credential source. -/
  | sourceCollision
  /-- The credential source of the profile cannot be used. -/
  | invalidSource
  /-- The role of the profile needs a second factor and there is none. -/
  | mfaUnset
  /-- The profile has a role and there is no assumer. -/
  | assumerUnset (roleArn : String)
  /-- The source profile of a role has no keys. -/
  | roleSourceUnset (roleArn : String)
  /-- A profile file cannot be parsed. -/
  | sharedConfig (error : Profile.ParseError)
  | caBundle (fault : CaBundleFault)
  | endpoint (error : EndpointError)
  deriving DecidableEq, Repr

namespace SessionError

/-- The stable code of the error. -/
def code : SessionError → String
  | .sourceCollision => "SharedConfigErr"
  | .invalidSource => "SharedConfigErr"
  | .mfaUnset => "AssumeRoleTokenProviderNotSetError"
  | .assumerUnset _ => "RoleAssumerNotSetError"
  | .roleSourceUnset _ => "SharedConfigAssumeRoleError"
  | .sharedConfig _ => "SharedConfigLoadError"
  | .caBundle _ => "LoadCustomCABundleError"
  | .endpoint error => error.code

/-- The wording of the error. -/
def message : SessionError → String
  | .sourceCollision => "only source profile or credential source can be specified, not both"
  | .invalidSource =>
    "credential source values must be EcsContainer, Ec2InstanceMetadata, or Environment"
  | .mfaUnset =>
    "assume role with MFA enabled, but AssumeRoleTokenProvider session option not set."
  | .assumerUnset roleArn =>
    s!"profile assumes role {roleArn}, but no role assumer was set in the session options"
  | .roleSourceUnset roleArn =>
    s!"failed to load assume role for {roleArn}, source profile has no shared credentials"
  | .sharedConfig error => "failed to load config file, " ++ error.path
  | .caBundle fault => fault.message
  | .endpoint _ => "failed to resolve endpoint"

end SessionError

end CloudSession
