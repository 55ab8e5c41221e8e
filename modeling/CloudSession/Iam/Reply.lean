import CloudSession.Iam.Document
import CloudSession.Time

/-!
# Token replies

The token service answers with a record, either as an object with named members or as an array of
values in fixed order. Access token and lifetime have to be there.
-/

namespace CloudSession.Iam

/-- What the token service answers. -/
structure Reply where
  access : String
  refresh : String
  type : String
  expiresIn : Int64
  /-- The expiration, if the service states it. -/
  expiration : Option Int64
  deriving DecidableEq, Repr

namespace Reply

/-- A document as text. -/
def text? : Document → Option String
  | .string text => text
  | _ => none

/-- A document as a 64-bit integer. -/
def word? : Document → Option Int64
  | .integer value => CloudSession.word? value
  | _ => none

/-- A document as a 64-bit integer that may be missing. -/
def optionalWord? : Document → Option (Option Int64)
  | .null => some none
  | document => (word? document).map some

/-- The names of the members that count, in the order of the array form. -/
def memberNames : List String :=
  ["access_token", "refresh_token", "token_type", "expires_in", "expiration"]

/-- Reads a record from its values in order; missing values at places where a value may be missing
are `none`. -/
def ofValues? (access refresh type expiresIn expiration : Option Document) : Option Reply := do
  let access ← access.bind text?
  let refresh ← match refresh with
    | none => some ""
    | some document => text? document
  let type ← match type with
    | none => some ""
    | some document => text? document
  let expiresIn ← expiresIn.bind word?
  let expiration ← match expiration with
    | none => some none
    | some document => optionalWord? document
  some { access, refresh, type, expiresIn, expiration }

/-- The value of the member called `name`. -/
def member? (members : List (Option String × Document)) (name : String) : Option Document :=
  (members.find? (·.1 = some name)).map Prod.snd

/-- Whether a member that counts occurs twice. -/
def hasRepetition (members : List (Option String × Document)) : Bool :=
  memberNames.any fun name => (members.filter (·.1 = some name)).length > 1

/-- Reads a reply from a document. -/
def ofDocument? : Document → Option Reply
  | .array items =>
    if items.length > memberNames.length then none
    else ofValues? items[0]? items[1]? items[2]? items[3]? items[4]?
  | .object members =>
    if members.any (·.1 = none) || hasRepetition members then none
    else
      ofValues? (member? members "access_token") (member? members "refresh_token")
        (member? members "token_type") (member? members "expires_in") (member? members "expiration")
  | _ => none

end Reply

end CloudSession.Iam
