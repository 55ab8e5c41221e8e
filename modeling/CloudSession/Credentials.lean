import CloudSession.Token

/-!
# Credentials

What one retrieval yields: a bearer token or a pair of HMAC keys, and where it comes from.
-/

namespace CloudSession

/-- What authenticates requests. -/
inductive Secret where
  /-- A bearer token, possibly for one service instance. -/
  | token (token : Token) (serviceInstance : Option String)
  /-- An HMAC key pair, possibly with a session token. -/
  | keys (accessKeyId secretAccessKey : String) (sessionToken : Option String)
  deriving DecidableEq, Repr

/-- Credentials, with the name of the provider that made them. -/
structure Credentials where
  secret : Secret
  provider : String
  /-- When the credentials were said to expire, apart from their token. -/
  explicitExpiry : Option Instant := none
  deriving DecidableEq, Repr

/-- How requests are authenticated. -/
inductive SigningScheme where
  /-- The token is sent along. -/
  | bearer
  /-- The request is signed with the keys. -/
  | sigV4
  deriving DecidableEq, Repr

namespace Credentials

/-- Credentials that carry a token. -/
def ofToken (token : Token) (serviceInstance : Option String) (provider : String) : Credentials where
  secret := .token token serviceInstance
  provider

/-- Credentials that carry keys. -/
def ofKeys (accessKeyId secretAccessKey : String) (sessionToken : Option String)
    (provider : String) : Credentials where
  secret := .keys accessKeyId secretAccessKey sessionToken
  provider

/-- The same credentials with an expiry of their own. -/
def withExpiry (credentials : Credentials) (expiry : Instant) : Credentials :=
  { credentials with explicitExpiry := some expiry }

/-- The token. -/
def token? (credentials : Credentials) : Option Token :=
  match credentials.secret with
  | .token token _ => some token
  | .keys .. => none

/-- The service instance that the token is for. -/
def serviceInstance? (credentials : Credentials) : Option String :=
  match credentials.secret with
  | .token _ serviceInstance => serviceInstance
  | .keys .. => none

/-- The access key; empty for a token. -/
def accessKeyId (credentials : Credentials) : String :=
  match credentials.secret with
  | .token .. => ""
  | .keys accessKeyId _ _ => accessKeyId

/-- The secret of the access key; empty for a token. -/
def secretAccessKey (credentials : Credentials) : String :=
  match credentials.secret with
  | .token .. => ""
  | .keys _ secretAccessKey _ => secretAccessKey

/-- The session token of the keys. -/
def sessionToken? (credentials : Credentials) : Option String :=
  match credentials.secret with
  | .token .. => none
  | .keys _ _ sessionToken => sessionToken

/-- When the credentials expire: as they were said to, else with their token, else never. -/
def expiry (credentials : Credentials) : Option Instant :=
  credentials.explicitExpiry <|> credentials.token?.map Token.expirationTime

/-- Tokens are sent along, and keys sign the request. -/
def scheme (credentials : Credentials) : SigningScheme :=
  match credentials.secret with
  | .token .. => .bearer
  | .keys .. => .sigV4

end Credentials

end CloudSession
