import CloudSession.Text.Blank

/-!
# URIs

A URI is an absolute one with scheme and authority, an authority alone, or a path. Reading checks the
characters of each part; a fragment is dropped.
-/

namespace CloudSession

open Text

/-- Why a text is no URI. -/
inductive UriFault where
  | empty
  | tooLong
  | schemeTooLong
  | invalidCharacter
  | invalidAuthority
  | invalidFormat
  deriving DecidableEq, Repr

/-- The wording of a fault. -/
def UriFault.message : UriFault → String
  | .empty => "empty string"
  | .tooLong => "uri too long"
  | .schemeTooLong => "scheme too long"
  | .invalidCharacter => "invalid uri character"
  | .invalidAuthority => "invalid authority"
  | .invalidFormat => "invalid format"

/-- A URI in its parts. -/
structure Uri where
  scheme : Option String := none
  authority : Option String := none
  path : String := ""
  query : Option String := none
  deriving DecidableEq, Repr

namespace Uri

/-- The characters of schemes, apart from the colon. -/
def isSchemeChar (c : Char) : Bool :=
  c.isAlphanum || c ∈ ['+', '-', '.', '~']

/-- The characters of authorities, apart from `%`. -/
def isAuthorityChar (c : Char) : Bool :=
  c.isAlphanum ||
    c ∈ ['!', '$', '&', '\'', '(', ')', '*', '+', ',', '-', '.', ':', ';', '=', '@', '[', ']', '_',
      '~']

/-- The characters of paths. -/
def isPathChar (c : Char) : Bool :=
  let n := c.toNat
  n == 0x21 || (0x24 ≤ n && n ≤ 0x3B) || n == 0x3D || (0x40 ≤ n && n ≤ 0x5F) ||
    (0x61 ≤ n && n ≤ 0x7E) || n == 0x22

/-- The characters of queries. -/
def isQueryChar (c : Char) : Bool :=
  let n := c.toNat
  n == 0x21 || (0x24 ≤ n && n ≤ 0x3B) || n == 0x3D || (0x3F ≤ n && n ≤ 0x7E)

/-- A URI is at most this long. -/
def maxLength : Nat := 65534

/-- A scheme is at most this long. -/
def maxSchemeLength : Nat := 64

/-- Cuts a scheme of known characters off the front of a text: what precedes the first colon and
what follows `://`. -/
def cutScheme (text : List Char) : Option (List Char × List Char) :=
  match splitFirst ':' text with
  | some (scheme, '/' :: '/' :: rest) =>
    if scheme.all isSchemeChar then some (scheme, rest) else none
  | _ => none

/-- The scheme of a text and what follows it. The schemes of the web are recognised in any case. -/
def readScheme (text : List Char) : Except UriFault (Option String × List Char) :=
  match cutScheme text with
  | none => .ok (none, text)
  | some (scheme, rest) =>
    let lower := scheme.map Char.toLower
    if lower = "http".toList || lower = "https".toList then
      .ok (some (String.ofList lower), rest)
    else if text.length ≤ 3 then
      .ok (none, text)
    else if scheme.length > maxSchemeLength then
      .error .schemeTooLong
    else
      .ok (some (String.ofList scheme), rest)

/-- What has been seen of an authority. -/
structure AuthorityScan where
  /-- Colons that may set off a port. -/
  colons : Nat := 0
  opened : Bool := false
  closed : Bool := false
  /-- Whether a `%` may belong to the host. -/
  percent : Bool := false
  /-- Whether the last character was `@`. -/
  atSign : Bool := false

/-- An authority has at most this many colons in a row of address groups. -/
def maxColons : Nat := 8

/-- Reads one character of an authority. User names and addresses in brackets may hold colons and
percent signs, so these are forgotten at the end of such a part. -/
def AuthorityScan.step (scan : AuthorityScan) (c : Char) : Except UriFault AuthorityScan :=
  let scan := { scan with atSign := c = '@' }
  if c = '%' then .ok { scan with percent := true }
  else if !isAuthorityChar c then .error .invalidCharacter
  else if c = ':' then
    if scan.colons ≥ maxColons then .error .invalidAuthority
    else .ok { scan with colons := scan.colons + 1 }
  else if c = '[' then
    if scan.percent || scan.opened then .error .invalidAuthority
    else .ok { scan with opened := true }
  else if c = ']' then
    if !scan.opened || scan.closed then .error .invalidAuthority
    else .ok { scan with closed := true, colons := 0, percent := false }
  else if c = '@' then .ok { scan with colons := 0, percent := false }
  else .ok scan

/-- Reads a whole authority. -/
def AuthorityScan.run (scan : AuthorityScan) : List Char → Except UriFault AuthorityScan
  | [] => .ok scan
  | c :: rest =>
    match scan.step c with
    | .error fault => .error fault
    | .ok next => next.run rest

/-- Checks that a text is an authority, possibly an empty one. -/
def checkAuthority (text : List Char) : Except UriFault Unit :=
  match AuthorityScan.run {} text with
  | .error fault => .error fault
  | .ok scan =>
    if scan.opened != scan.closed || scan.colons > 1 || scan.atSign || scan.percent then
      .error .invalidAuthority
    else
      .ok ()

/-- The characters that end an authority. -/
def endsAuthority (c : Char) : Bool :=
  c = '/' || c = '?' || c = '#'

/-- Reads a path, a query and a fragment; the fragment is dropped. -/
def readPathAndQuery (text : List Char) : Except UriFault (String × Option String) :=
  let path := text.takeWhile fun c => c ≠ '?' && c ≠ '#'
  if !path.all isPathChar then
    .error .invalidCharacter
  else
    match text.drop path.length with
    | '?' :: rest =>
      let query := rest.takeWhile (· ≠ '#')
      if query.all isQueryChar then .ok (String.ofList path, some (String.ofList query))
      else .error .invalidCharacter
    | _ => .ok (String.ofList path, none)

/-- Reads what follows a scheme. -/
def readAbsolute (scheme : String) (text : List Char) : Except UriFault Uri :=
  let authority := text.takeWhile (!endsAuthority ·)
  match checkAuthority authority with
  | .error fault => .error fault
  | .ok () =>
    if authority = [] then
      .error .invalidFormat
    else
      match readPathAndQuery (text.drop authority.length) with
      | .error fault => .error fault
      | .ok (path, query) =>
        .ok
          { scheme := some scheme
            authority := some (String.ofList authority)
            path := if path = "" then "/" else path
            query }

/-- Reads a text that has to be an authority. -/
def readAuthority (text : List Char) : Except UriFault Uri :=
  let authority := text.takeWhile (!endsAuthority ·)
  match checkAuthority authority with
  | .error fault => .error fault
  | .ok () =>
    if authority.length = text.length then .ok { authority := some (String.ofList text) }
    else .error .invalidFormat

/-- Reads a URI. -/
def parse (text : String) : Except UriFault Uri :=
  if text.utf8ByteSize > maxLength then .error .tooLong
  else
    match text.toList with
    | [] => .error .empty
    | ['*'] => .ok { path := "*" }
    | '/' :: rest =>
      match readPathAndQuery ('/' :: rest) with
      | .error fault => .error fault
      | .ok (path, query) => .ok { path, query }
    | chars =>
      match readScheme chars with
      | .error fault => .error fault
      | .ok (none, rest) => readAuthority rest
      | .ok (some scheme, rest) => readAbsolute scheme rest

/-- The text of a URI. -/
def toText (uri : Uri) : String :=
  (uri.scheme.map (· ++ "://")).getD "" ++ uri.authority.getD "" ++ uri.path ++
    (uri.query.map ("?" ++ ·)).getD ""

/-- What follows the last occurrence of `mark`; the whole text if there is none. -/
def afterLast (mark : Char) (text : List Char) : List Char :=
  (text.reverse.takeWhile (· ≠ mark)).reverse

/-- The host of the authority. An address in brackets keeps them. -/
def host? (uri : Uri) : Option String :=
  uri.authority.map fun authority =>
    let hostAndPort := afterLast '@' authority.toList
    match hostAndPort with
    | '[' :: rest => String.ofList ('[' :: rest.takeWhile (· ≠ ']') ++ [']'])
    | _ => String.ofList (hostAndPort.takeWhile (· ≠ ':'))

/-- A port number: digits, possibly after a plus sign, below 2^16. -/
def readPort (text : List Char) : Option Nat :=
  let digits := if text.head? = some '+' then text.drop 1 else text
  if digits ≠ [] && digits.all Char.isDigit then
    let n := digits.foldl (fun n c => n * 10 + (c.toNat - '0'.toNat)) 0
    if n < 65536 then some n else none
  else
    none

/-- The port: what follows the last colon of the authority, if that is a number. -/
def port? (uri : Uri) : Option Nat :=
  uri.authority.bind fun authority =>
    if authority.toList.contains ':' then readPort (afterLast ':' authority.toList) else none

/-- A text with its ASCII letters in lower case. -/
def lowered (s : String) : String :=
  String.ofList (s.toList.map Char.toLower)

/-- URIs are the same when their paths and queries are, and their schemes and authorities are but
for the case of letters. -/
def same (a b : Uri) : Bool :=
  a.scheme.map lowered = b.scheme.map lowered &&
    a.authority.map lowered = b.authority.map lowered && a.path = b.path && a.query = b.query

end Uri

end CloudSession
