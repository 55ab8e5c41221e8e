import CloudSession.Text.Replace

/-!
# Schemes of endpoints

An endpoint may be given without a scheme. It has one when `://` follows a nonempty text without a
colon.
-/

namespace CloudSession.Endpoint

/-- The mark between a scheme and the rest of an endpoint. -/
def schemeMark : List Char := [':', '/', '/']

/-- Whether an endpoint carries a scheme. -/
def hasScheme (endpoint : String) : Bool :=
  match Text.before? schemeMark endpoint.toList with
  | none => false
  | some scheme => scheme ≠ [] && !scheme.contains ':'

/-- The endpoint with a scheme: its own, else `http` where encryption is disabled, else `https`. -/
def addScheme (endpoint : String) (disableSsl : Bool) : String :=
  if hasScheme endpoint then endpoint
  else (if disableSsl then "http" else "https") ++ "://" ++ endpoint

end CloudSession.Endpoint
