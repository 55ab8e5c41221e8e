import CloudSession.Endpoint.Resolver
import CloudSession.Provider

/-!
# Configurations

A configuration sets some fields and leaves others open. Merging configurations lets the last one that
sets a field win.
-/

namespace CloudSession

/-- What sends requests. -/
inductive HttpClient where
  /-- The standard client. -/
  | standard
  /-- A client of the caller. -/
  | custom
  /-- The standard client, which trusts these certificates alone. -/
  | trusting (certificates : List (List UInt8))
  deriving DecidableEq, Repr

/-- What can be set for a session and its clients. -/
structure Config where
  region : Option String := none
  credentials : Option CachedProvider := none
  endpoint : Option String := none
  resolver : Option EndpointResolver := none
  httpClient : Option HttpClient := none
  maxRetries : Option Nat := none
  disableSsl : Option Bool := none
  useDualStack : Option Bool := none
  disableValidation : Option Bool := none
  verboseErrors : Option Bool := none

namespace Config

/-- The configuration with a region; an empty one counts as not set. -/
def withRegion (config : Config) (region : Option String) : Config :=
  { config with region := region.filter (· ≠ "") }

/-- The configuration with an endpoint; an empty one counts as not set. -/
def withEndpoint (config : Config) (endpoint : Option String) : Config :=
  { config with endpoint := endpoint.filter (· ≠ "") }

/-- The configuration with every field that `other` sets replaced. -/
def merge (config other : Config) : Config where
  region := other.region <|> config.region
  credentials := other.credentials <|> config.credentials
  endpoint := other.endpoint <|> config.endpoint
  resolver := other.resolver <|> config.resolver
  httpClient := other.httpClient <|> config.httpClient
  maxRetries := other.maxRetries <|> config.maxRetries
  disableSsl := other.disableSsl <|> config.disableSsl
  useDualStack := other.useDualStack <|> config.useDualStack
  disableValidation := other.disableValidation <|> config.disableValidation
  verboseErrors := other.verboseErrors <|> config.verboseErrors

/-- The configuration with others merged into it, in order. -/
def copy (config : Config) (overrides : List Config) : Config :=
  overrides.foldl merge config

/-- The options for the resolution of an endpoint; services that are not known are resolved too. -/
def endpointOptions (config : Config) : EndpointOptions where
  disableSsl := config.disableSsl.getD false
  useDualStack := config.useDualStack.getD false
  resolveUnknownService := true

end Config

end CloudSession
