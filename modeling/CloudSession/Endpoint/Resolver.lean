import CloudSession.Endpoint.Scheme
import CloudSession.Endpoint.Uri

/-!
# Endpoint resolution

A resolver turns a service and a region into the URL that requests are sent to, and says for which
region and under which service name they are signed. The standard resolver fills in a template.
-/

namespace CloudSession

/-- Why there is no endpoint. -/
inductive EndpointError where
  | missingRegion (service : String)
  | unknownService (service region : String)
  | invalidUrl (url : String) (fault : UriFault)
  deriving DecidableEq, Repr

namespace EndpointError

/-- The stable code of the error. -/
def code : EndpointError → String
  | .missingRegion _ => "MissingRegion"
  | .unknownService _ _ => "UnknownServiceError"
  | .invalidUrl _ _ => "InvalidEndpointURL"

/-- The wording of the error. -/
def message : EndpointError → String
  | .missingRegion service => "could not find region configuration for " ++ service
  | .unknownService service region =>
    s!"could not resolve endpoint for unknown service: {service}, region: {region}"
  | .invalidUrl url _ => "invalid endpoint URL " ++ url

end EndpointError

/-- What can be asked of one resolution. -/
structure EndpointOptions where
  /-- Plain `http`. -/
  disableSsl : Bool := false
  /-- The host name that answers over IPv4 and IPv6. -/
  useDualStack : Bool := false
  /-- Resolve services that the resolver does not know by the template too. -/
  resolveUnknownService : Bool := false
  deriving DecidableEq, Repr

/-- Where requests go, and for which region and service they are signed. -/
structure ResolvedEndpoint where
  url : String := ""
  signingRegion : Option String := none
  signingName : Option String := none
  /-- Whether the signing name was derived from the service. -/
  signingNameDerived : Bool := false
  deriving DecidableEq, Repr

/-- The URL of an endpoint as a URI. -/
def ResolvedEndpoint.uri (endpoint : ResolvedEndpoint)
    (readUri : String → Except UriFault Uri := Uri.parse) : Except EndpointError Uri :=
  match readUri endpoint.url with
  | .ok uri => .ok uri
  | .error fault => .error (.invalidUrl endpoint.url fault)

/-- A resolver answers for a service, a region and options. -/
abbrev EndpointResolver :=
  String → Option String → EndpointOptions → Except EndpointError ResolvedEndpoint

/-- The standard resolver: its domain, and the services it knows. -/
structure TemplateResolver where
  dnsSuffix : String := "cloud-object-storage.appdomain.cloud"
  knownServices : List String := ["s3"]
  deriving DecidableEq, Repr

namespace TemplateResolver

/-- The template of host names. -/
def template (useDualStack : Bool) : String :=
  if useDualStack then "\x7bservice\x7d.dualstack.\x7bregion\x7d.\x7bdnsSuffix\x7d"
  else "\x7bservice\x7d.\x7bregion\x7d.\x7bdnsSuffix\x7d"

/-- Fills one placeholder of a template. -/
def fill (template placeholder value : String) : String :=
  String.ofList (Text.replaceAll placeholder.toList value.toList template.toList)

/-- The host name of a service in a region. The placeholders are filled one after the other, so a
value that holds the placeholder of a later one has it filled too. -/
def hostname (resolver : TemplateResolver) (service region : String) (useDualStack : Bool) : String :=
  let named := fill (template useDualStack) "\x7bservice\x7d" service
  let placed := fill named "\x7bregion\x7d" region
  fill placed "\x7bdnsSuffix\x7d" resolver.dnsSuffix

/-- The endpoint of a service in a region. -/
def resolve (resolver : TemplateResolver) : EndpointResolver := fun service region? options =>
  match region?.filter (· ≠ "") with
  | none => .error (.missingRegion service)
  | some region =>
    if !resolver.knownServices.contains service && !options.resolveUnknownService then
      .error (.unknownService service region)
    else
      .ok
        { url := Endpoint.addScheme (resolver.hostname service region options.useDualStack)
            options.disableSsl
          signingRegion := some region
          signingName := some service
          signingNameDerived := true }

end TemplateResolver

/-- The resolver that answers unless another one is configured. -/
def EndpointResolver.standard : EndpointResolver :=
  TemplateResolver.resolve {}

end CloudSession
