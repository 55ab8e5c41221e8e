/-!
# UTF-8

Files and response bodies are bytes; names, values and messages are text. This module reads bytes as
UTF-8, says where and how they fail to be UTF-8, and replaces what cannot be read by U+FFFD.
-/

namespace CloudSession.Text.Utf8

/-- Why bytes are not UTF-8. -/
inductive Fault where
  /-- The `length` bytes from `index` on cannot start or continue a character. -/
  | invalid (length index : Nat)
  /-- The bytes end inside the character that starts at `index`. -/
  | truncated (index : Nat)
  deriving DecidableEq, Repr

/-- The wording of a fault. -/
def Fault.message : Fault → String
  | .invalid length index => s!"invalid utf-8 sequence of {length} bytes from index {index}"
  | .truncated index => s!"incomplete utf-8 byte sequence from index {index}"

/-- What stands at the head of a nonempty byte sequence. -/
inductive Head where
  /-- A character written in `size` bytes. -/
  | char (c : Char) (size : Nat)
  /-- `size` bytes that belong to no character. -/
  | bad (size : Nat)
  /-- The start of a character whose remaining bytes are missing. -/
  | cut
  deriving DecidableEq, Repr

/-- A byte of the form `10xxxxxx` continues a character. -/
def isContinuation (b : UInt8) : Bool :=
  0x80 ≤ b && b ≤ 0xBF

/-- The six payload bits of a continuation byte. -/
def payload (b : UInt8) : Nat :=
  b.toNat % 64

/-- The bytes that may follow the lead byte `b` of a character of three or four bytes: this excludes
longer forms than needed, surrogates and numbers above U+10FFFF. -/
def isSecond (b second : UInt8) : Bool :=
  if b = 0xE0 then 0xA0 ≤ second && second ≤ 0xBF
  else if b = 0xED then 0x80 ≤ second && second ≤ 0x9F
  else if b = 0xF0 then 0x90 ≤ second && second ≤ 0xBF
  else if b = 0xF4 then 0x80 ≤ second && second ≤ 0x8F
  else isContinuation second

/-- A character of two bytes. -/
def head2 (b : UInt8) : List UInt8 → Head
  | [] => .cut
  | b₂ :: _ =>
    if isContinuation b₂ then .char (Char.ofNat (b.toNat % 32 * 64 + payload b₂)) 2 else .bad 1

/-- A character of three bytes. -/
def head3 (b : UInt8) : List UInt8 → Head
  | [] => .cut
  | b₂ :: rest =>
    if !isSecond b b₂ then .bad 1
    else match rest with
      | [] => .cut
      | b₃ :: _ =>
        if isContinuation b₃ then
          .char (Char.ofNat ((b.toNat % 16 * 64 + payload b₂) * 64 + payload b₃)) 3
        else .bad 2

/-- A character of four bytes. -/
def head4 (b : UInt8) : List UInt8 → Head
  | [] => .cut
  | b₂ :: rest =>
    if !isSecond b b₂ then .bad 1
    else match rest with
      | [] => .cut
      | b₃ :: rest =>
        if !isContinuation b₃ then .bad 2
        else match rest with
          | [] => .cut
          | b₄ :: _ =>
            if isContinuation b₄ then
              .char (Char.ofNat (((b.toNat % 8 * 64 + payload b₂) * 64 + payload b₃) * 64 +
                payload b₄)) 4
            else .bad 3

/-- Reads the head of the byte sequence `b :: rest`. -/
def head (b : UInt8) (rest : List UInt8) : Head :=
  if b < 0x80 then .char (Char.ofNat b.toNat) 1
  else if 0xC2 ≤ b && b ≤ 0xDF then head2 b rest
  else if 0xE0 ≤ b && b ≤ 0xEF then head3 b rest
  else if 0xF0 ≤ b && b ≤ 0xF4 then head4 b rest
  else .bad 1

/-- Reads bytes that start at position `index` of a longer text. -/
def decodeFrom (index : Nat) : List UInt8 → Except Fault (List Char)
  | [] => .ok []
  | b :: rest =>
    match head b rest with
    | .char c size => (decodeFrom (index + size) (rest.drop (size - 1))).map (c :: ·)
    | .bad size => .error (.invalid size index)
    | .cut => .error (.truncated index)
termination_by bytes => bytes.length
decreasing_by simp only [List.length_drop, List.length_cons]; omega

/-- The text that the bytes spell, or the first fault. -/
def decode (bytes : List UInt8) : Except Fault String :=
  (decodeFrom 0 bytes).map String.ofList

/-- The characters that the bytes spell, with U+FFFD for each stretch that spells none. -/
def decodeLossyChars : List UInt8 → List Char
  | [] => []
  | b :: rest =>
    match head b rest with
    | .char c size => c :: decodeLossyChars (rest.drop (size - 1))
    | .bad size => '\uFFFD' :: decodeLossyChars (rest.drop (size - 1))
    | .cut => ['\uFFFD']
termination_by bytes => bytes.length
decreasing_by all_goals simp only [List.length_drop, List.length_cons]; omega

/-- The text that the bytes spell, with U+FFFD for each stretch that spells none. -/
def decodeLossy (bytes : List UInt8) : String :=
  String.ofList (decodeLossyChars bytes)

/-- The bytes that spell a text. -/
def encode (s : String) : List UInt8 :=
  s.toList.flatMap String.utf8EncodeChar

end CloudSession.Text.Utf8
