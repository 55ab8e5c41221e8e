import CloudSession.Text.Utf8

/-!
# JSON documents

The reader of token replies. It takes bytes, checks the grammar everywhere, and keeps what a reader
of records can ask for: integers apart from other numbers, and strings that can be read as text apart
from those that cannot.
-/

namespace CloudSession.Iam

/-- A JSON document. -/
inductive Document where
  | null
  | bool (value : Bool)
  /-- A number written as an integer other than negative zero. -/
  | integer (value : Int)
  /-- Any other number. -/
  | number
  /-- A string; nothing if its bytes and escapes spell no text. -/
  | string (text : Option String)
  | array (items : List Document)
  | object (members : List (Option String × Document))

namespace Document

/-- White space between tokens. -/
def isSpace (b : UInt8) : Bool :=
  b = 32 || b = 10 || b = 9 || b = 13

/-- The bytes from the next token on. -/
def skipSpace (bytes : List UInt8) : List UInt8 :=
  bytes.dropWhile isSpace

/-- A decimal digit. -/
def isDigit (b : UInt8) : Bool :=
  48 ≤ b && b ≤ 57

/-- The number that decimal digits spell. -/
def decimal (digits : List UInt8) : Nat :=
  digits.foldl (fun n b => n * 10 + (b.toNat - 48)) 0

/-- Cuts the longest row of digits off the front; there has to be one digit at least. -/
def digits (bytes : List UInt8) : Option (List UInt8 × List UInt8) :=
  let row := bytes.takeWhile isDigit
  if row = [] then none else some (row, bytes.drop row.length)

/-- Cuts an exponent off the front, which may be missing; says whether there was one. -/
def exponent : List UInt8 → Option (Bool × List UInt8)
  | b :: rest =>
    if b = 101 || b = 69 then
      let rest := if rest.head? = some 43 || rest.head? = some 45 then rest.drop 1 else rest
      (digits rest).map fun (_, rest) => (true, rest)
    else
      some (false, b :: rest)
  | [] => some (false, [])

/-- Cuts a fraction off the front, which may be missing; says whether there was one. -/
def fraction : List UInt8 → Option (Bool × List UInt8)
  | 46 :: rest => (digits rest).map fun (_, rest) => (true, rest)
  | bytes => some (false, bytes)

/-- Reads a number from its first digit on. -/
def unsignedNumber (negative : Bool) (bytes : List UInt8) : Option (Document × List UInt8) := do
  let (row, rest) ← digits bytes
  if row.length > 1 && row.head? = some 48 then
    none
  else
    let (fractional, rest) ← fraction rest
    let (scaled, rest) ← exponent rest
    let value := decimal row
    if fractional || scaled || (negative && value = 0) then some (.number, rest)
    else some (.integer (if negative then -(value : Int) else value), rest)

/-- A part of a string: a byte that stands for itself, or the number of an escape. -/
inductive Piece where
  | byte (b : UInt8)
  | unit (n : Nat)

/-- The value of a hexadecimal digit. -/
def hexValue? (b : UInt8) : Option Nat :=
  let n := b.toNat
  if 48 ≤ n ∧ n ≤ 57 then some (n - 48)
  else if 97 ≤ n ∧ n ≤ 102 then some (n - 87)
  else if 65 ≤ n ∧ n ≤ 70 then some (n - 55)
  else none

/-- The number of four hexadecimal digits. -/
def hexUnit? (a b c d : UInt8) : Option Nat := do
  let a ← hexValue? a
  let b ← hexValue? b
  let c ← hexValue? c
  let d ← hexValue? d
  some (((a * 16 + b) * 16 + c) * 16 + d)

/-- The byte that a one-letter escape stands for. -/
def escaped? (b : UInt8) : Option UInt8 :=
  if b = 34 || b = 92 || b = 47 then some b
  else if b = 98 then some 8
  else if b = 102 then some 12
  else if b = 110 then some 10
  else if b = 114 then some 13
  else if b = 116 then some 9
  else none

/-- Reads the rest of a string, up to its closing quotation mark. -/
def stringPieces : List UInt8 → Option (List Piece × List UInt8)
  | [] => none
  | 34 :: rest => some ([], rest)
  | 92 :: 117 :: a :: b :: c :: d :: rest => do
    let n ← hexUnit? a b c d
    let (pieces, rest) ← stringPieces rest
    some (.unit n :: pieces, rest)
  | 92 :: b :: rest => do
    let b ← escaped? b
    let (pieces, rest) ← stringPieces rest
    some (.byte b :: pieces, rest)
  | b :: rest => do
    if b < 32 then
      none
    else
      let (pieces, rest) ← stringPieces rest
      some (.byte b :: pieces, rest)

/-- The number of the character that two escapes spell together. -/
def surrogatePair? (high low : Nat) : Option Nat :=
  if 0xD800 ≤ high ∧ high ≤ 0xDBFF ∧ 0xDC00 ≤ low ∧ low ≤ 0xDFFF then
    some (0x10000 + (high - 0xD800) * 1024 + (low - 0xDC00))
  else
    none

/-- The bytes that the pieces of a string spell, if every escape is or belongs to a character. -/
def pieceBytes : List Piece → Option (List UInt8)
  | [] => some []
  | .byte b :: rest => (pieceBytes rest).map (b :: ·)
  | .unit n :: rest =>
    if n < 0xD800 || 0xDFFF < n then
      (pieceBytes rest).map (String.utf8EncodeChar (Char.ofNat n) ++ ·)
    else
      match rest with
      | .unit low :: rest => do
        let n ← surrogatePair? n low
        let bytes ← pieceBytes rest
        some (String.utf8EncodeChar (Char.ofNat n) ++ bytes)
      | _ => none

/-- The text that the pieces of a string spell, if they spell any. -/
def pieceText (pieces : List Piece) : Option String :=
  (pieceBytes pieces).bind fun bytes => (Text.Utf8.decode bytes).toOption

/-- Reads the rest of a string as text. -/
def stringText (bytes : List UInt8) : Option (Option String × List UInt8) :=
  (stringPieces bytes).map fun (pieces, rest) => (pieceText pieces, rest)

/-- Cuts a word off the front. -/
def word (letters : List UInt8) (document : Document) (bytes : List UInt8) :
    Option (Document × List UInt8) :=
  if letters.isPrefixOf bytes then some (document, bytes.drop letters.length) else none

mutual

/-- Reads a document of at most `fuel` nested or neighbouring parts. -/
def value (fuel : Nat) (bytes : List UInt8) : Option (Document × List UInt8) :=
  match fuel with
  | 0 => none
  | fuel + 1 =>
    match skipSpace bytes with
    | 110 :: rest => word [117, 108, 108] .null rest
    | 116 :: rest => word [114, 117, 101] (.bool true) rest
    | 102 :: rest => word [97, 108, 115, 101] (.bool false) rest
    | 34 :: rest => (stringText rest).map fun (text, rest) => (.string text, rest)
    | 45 :: rest => unsignedNumber true rest
    | 91 :: rest =>
      match skipSpace rest with
      | 93 :: rest => some (.array [], rest)
      | rest => (items fuel rest).map fun (items, rest) => (.array items, rest)
    | 123 :: rest =>
      match skipSpace rest with
      | 125 :: rest => some (.object [], rest)
      | rest => (members fuel rest).map fun (members, rest) => (.object members, rest)
    | rest => unsignedNumber false rest

/-- Reads the items of an array, from the first to the closing bracket. -/
def items (fuel : Nat) (bytes : List UInt8) : Option (List Document × List UInt8) :=
  match fuel with
  | 0 => none
  | fuel + 1 => do
    let (item, rest) ← value fuel bytes
    match skipSpace rest with
    | 93 :: rest => some ([item], rest)
    | 44 :: rest =>
      let (others, rest) ← items fuel rest
      some (item :: others, rest)
    | _ => none

/-- Reads the members of an object, from the first to the closing brace. -/
def members (fuel : Nat) (bytes : List UInt8) :
    Option (List (Option String × Document) × List UInt8) :=
  match fuel with
  | 0 => none
  | fuel + 1 => do
    match skipSpace bytes with
    | 34 :: rest =>
      let (key, rest) ← stringText rest
      match skipSpace rest with
      | 58 :: rest =>
        let (item, rest) ← value fuel rest
        match skipSpace rest with
        | 125 :: rest => some ([(key, item)], rest)
        | 44 :: rest =>
          let (others, rest) ← members fuel rest
          some ((key, item) :: others, rest)
        | _ => none
      | _ => none
    | _ => none

end

/-- The document that the bytes spell. Each part takes a byte at least, so the number of bytes bounds
the number of parts. -/
def parse? (bytes : List UInt8) : Option Document :=
  match value (2 * bytes.length + 2) bytes with
  | some (document, rest) => if skipSpace rest = [] then some document else none
  | none => none

end Document

end CloudSession.Iam
