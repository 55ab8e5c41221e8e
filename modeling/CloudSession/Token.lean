import CloudSession.Time

/-!
# Tokens

A bearer token and when it expires. The recorded expiration is authoritative: it is fixed when the
token is made and never computed again from the lifetime.
-/

namespace CloudSession

/-- A bearer token of the token service. -/
structure Token where
  access : String
  refresh : String
  type : String
  /-- The lifetime in seconds, as the issuer reports it. -/
  expiresIn : Int64
  /-- The expiration in seconds since the epoch. -/
  expiration : Int64
  deriving DecidableEq, Repr

namespace Token

/-- A token that lives for `expiresIn` seconds from `issuedAt` on. -/
def issued (access refresh type : String) (expiresIn : Int64) (issuedAt : Instant) : Token where
  access
  refresh
  type
  expiresIn
  expiration := saturate (issuedAt.seconds + expiresIn.toInt)

/-- The lifetime; a negative one counts as none. -/
def lifetime (token : Token) : Span :=
  Span.ofSeconds token.expiresIn.toInt.toNat

/-- When the token expires; an expiration before the epoch counts as the epoch. -/
def expirationTime (token : Token) : Instant :=
  Instant.ofSeconds token.expiration.toInt.toNat

/-- The scheme word with which the token is presented. -/
def scheme (token : Token) : String :=
  if token.type = "" then "Bearer" else token.type

/-- The value of the `authorization` header that presents the token. -/
def authorization (token : Token) : String :=
  token.scheme ++ " " ++ token.access

end Token

end CloudSession
