import CloudSession.Certificate.Bundle

/-!
# The encoding of certificates

What is a certificate is up to the library that encrypts connections. Between its markers a certificate
is written in Base64, and the bytes spelled by that are nested elements of a tag, a length and
contents. `isWellFormed` looks no further than that: it accepts the certificates whose outermost
element consists of the body, the algorithm and the signature.
-/

namespace CloudSession

namespace Certificate

/-- The value of a Base64 digit. -/
def digit? (b : UInt8) : Option Nat :=
  let n := b.toNat
  if 65 ≤ n ∧ n ≤ 90 then some (n - 65)
  else if 97 ≤ n ∧ n ≤ 122 then some (n - 97 + 26)
  else if 48 ≤ n ∧ n ≤ 57 then some (n - 48 + 52)
  else if n = 43 then some 62
  else if n = 47 then some 63
  else none

/-- The bytes that four-digit groups spell; a last group may lack its last digits. -/
def groupBytes : List Nat → List UInt8
  | a :: b :: c :: d :: rest =>
    UInt8.ofNat (a * 4 + b / 16) :: UInt8.ofNat (b * 16 + c / 4) :: UInt8.ofNat (c * 64 + d) ::
      groupBytes rest
  | [a, b, c] => [UInt8.ofNat (a * 4 + b / 16), UInt8.ofNat (b * 16 + c / 4)]
  | [a, b] => [UInt8.ofNat (a * 4 + b / 16)]
  | _ => []

/-- The bytes that a padded Base64 text spells. -/
def decodeBase64 (text : List UInt8) : Option (List UInt8) :=
  let digits := text.takeWhile (· ≠ 61)
  let padding := text.drop digits.length
  if text.length % 4 = 0 ∧ padding.length ≤ 2 ∧ padding.all (· = 61) then
    (digits.mapM digit?).map groupBytes
  else
    none

/-- The bytes of lines, each without the white space at its end. -/
def trimmedLines (bytes : List UInt8) : List (List UInt8) :=
  (bytes.splitBy fun a _ => a ≠ 10).map fun line =>
    (line.reverse.dropWhile (· ≤ 32)).reverse

/-- The encoded bytes of a certificate: the Base64 text between a first line with the opening marker
and a last line with the closing one. -/
def payload? (block : List UInt8) : Option (List UInt8) :=
  match trimmedLines block with
  | [] => none
  | first :: rest =>
    if first = beginMarker ∧ rest.getLast? = some endMarker then
      decodeBase64 rest.dropLast.flatten
    else
      none

/-- The number that bytes spell, the most significant first. -/
def bigEndian (bytes : List UInt8) : Nat :=
  bytes.foldl (fun n b => n * 256 + b.toNat) 0

/-- The length at the head of some bytes, and the bytes after it. -/
def readLength : List UInt8 → Option (Nat × List UInt8)
  | [] => none
  | b :: rest =>
    if b < 128 then
      some (b.toNat, rest)
    else
      let size := b.toNat - 128
      if 1 ≤ size ∧ size ≤ 4 ∧ size ≤ rest.length then
        some (bigEndian (rest.take size), rest.drop size)
      else
        none

/-- The element at the head of some bytes: its tag, its contents and the bytes after it. -/
def readElement : List UInt8 → Option (UInt8 × List UInt8 × List UInt8)
  | [] => none
  | tag :: rest =>
    match readLength rest with
    | none => none
    | some (size, rest) =>
      if size ≤ rest.length then some (tag, rest.take size, rest.drop size) else none

/-- The tag of a sequence of elements. -/
def sequenceTag : UInt8 := 0x30

/-- The tag of a string of bits. -/
def bitsTag : UInt8 := 0x03

/-- The tags of the elements that some bytes consist of, at most `count`. -/
def elementTags : Nat → List UInt8 → Option (List UInt8)
  | _, [] => some []
  | 0, _ => none
  | count + 1, bytes =>
    match readElement bytes with
    | none => none
    | some (tag, _, rest) => (elementTags count rest).map (tag :: ·)

/-- Whether a block of a bundle holds a certificate. -/
def isWellFormed (block : List UInt8) : Bool :=
  match (payload? block).bind readElement with
  | some (tag, contents, []) =>
    tag = sequenceTag && elementTags 3 contents = some [sequenceTag, sequenceTag, bitsTag]
  | _ => false

end Certificate

/-- The library that encrypts connections, as far as certificates are concerned. -/
structure TlsLibrary where
  /-- Whether it takes a block of a bundle for a certificate. -/
  accepts : List UInt8 → Bool := Certificate.isWellFormed
  /-- Whether it can set up connections that trust the certificates. -/
  connects : List (List UInt8) → Bool := fun _ => true

namespace Certificate

/-- Why a bundle cannot be trusted. -/
inductive BundleError where
  | noCertificates
  | invalidCertificate
  /-- No connections can be set up with the certificates. -/
  | tls
  deriving DecidableEq, Repr

/-- The certificates of a bundle, which has to hold at least one, and none that the library does not
accept. -/
def load (bundle : List UInt8) (tls : TlsLibrary := {}) : Except BundleError (List (List UInt8)) :=
  let certificates := blocks bundle
  if certificates = [] then .error .noCertificates
  else if !certificates.all tls.accepts then .error .invalidCertificate
  else if !tls.connects certificates then .error .tls
  else .ok certificates

end Certificate

end CloudSession
