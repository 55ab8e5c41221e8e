import CloudSession.Time

/-!
# Counts

A count is written in decimal digits, possibly after a plus sign, and fits a 64-bit word.
-/

namespace CloudSession.Text

/-- The number that decimal digits spell, at least one. -/
def digits? (text : List Char) : Option Nat :=
  if text ≠ [] ∧ text.all Char.isDigit then
    some (text.foldl (fun n c => n * 10 + (c.toNat - '0'.toNat)) 0)
  else
    none

/-- The count that a text spells. -/
def count? (text : String) : Option Nat :=
  let digits :=
    match text.toList with
    | '+' :: rest => rest
    | all => all
  (digits? digits).filter (· < wordCount)

end CloudSession.Text
