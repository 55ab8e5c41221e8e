import CloudSession.Text.Utf8

/-!
# Form bodies

A form is a list of names and values, written as `name=value` pairs joined by `&`. Letters, digits
and `* - . _` stand for themselves, a space is written `+`, and every other byte is written as a
percent sign and two hexadecimal digits.
-/

namespace CloudSession.Iam

/-- The hexadecimal digit of a number below 16. -/
def hexDigit (n : Nat) : Char :=
  if n < 10 then Char.ofNat ('0'.toNat + n) else Char.ofNat ('A'.toNat + (n - 10))

/-- A byte of a name or a value as it is written in a form. -/
def formByte (b : UInt8) : List Char :=
  let c := Char.ofNat b.toNat
  if b < 128 && (c.isAlphanum || c ∈ ['*', '-', '.', '_']) then [c]
  else if c = ' ' then ['+']
  else ['%', hexDigit (b.toNat / 16), hexDigit (b.toNat % 16)]

/-- A name or a value as it is written in a form. -/
def formText (s : String) : String :=
  String.ofList ((Text.Utf8.encode s).flatMap formByte)

/-- The text of a form. -/
def formBody (fields : List (String × String)) : String :=
  String.intercalate "&" (fields.map fun (name, value) => formText name ++ "=" ++ formText value)

end CloudSession.Iam
