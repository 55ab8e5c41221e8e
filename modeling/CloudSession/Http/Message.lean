import CloudSession.Endpoint.Uri

/-!
# HTTP messages

Requests and responses with their whole bodies. Header names are in lower case, and a name may have
several values.
-/

namespace CloudSession.Http

/-- One header. The value of a sensitive one is not to be shown. -/
structure Header where
  name : String
  value : String
  sensitive : Bool := false
  deriving DecidableEq, Repr

/-- The characters of header values where nothing else is said: all but the control characters of ASCII,
of which the tab is allowed. -/
def isValueChar (c : Char) : Bool :=
  c = '\t' || (' ' ≤ c && c ≠ '\x7f')

/-- Whether a text can be the value of a header. -/
def isHeaderValue (value : String) : Bool :=
  value.toList.all isValueChar

/-- A request. -/
structure Request where
  method : String := "GET"
  uri : Uri := { path := "/" }
  headers : List Header := []
  body : List UInt8 := []
  deriving DecidableEq, Repr

/-- A response. -/
structure Response where
  status : Nat := 200
  body : List UInt8 := []
  deriving DecidableEq, Repr

/-- Whether the status says that the request was carried out. -/
def Response.isSuccess (response : Response) : Bool :=
  200 ≤ response.status && response.status < 300

namespace Request

/-- The first header called `name`. -/
def header? (request : Request) (name : String) : Option Header :=
  request.headers.find? (·.name = name)

/-- The request with `header` as the only header of its name. -/
def setHeader (request : Request) (header : Header) : Request :=
  { request with headers := request.headers.filter (·.name ≠ header.name) ++ [header] }

/-- Whether a request is the expected one: it has the first value of each of its headers that is not
ignored, and the same body, URI and method. -/
def isAsExpected (expected actual : Request) (ignored : List String) : Bool :=
  expected.headers.all (fun header =>
    ignored.contains header.name ||
      (actual.header? header.name).map Header.value = some header.value) &&
    actual.body = expected.body && actual.uri.same expected.uri && actual.method = expected.method

end Request

end CloudSession.Http
