/-!
# White space and lines

Configuration text is cut at white space in the sense of Unicode, and into lines at line feeds.
All functions work on lists of characters, so that facts about them are facts about lists.
-/

namespace CloudSession.Text

/-- White space: the characters with the Unicode property `White_Space`. -/
def isBlank (c : Char) : Bool :=
  let n := c.toNat
  (9 ≤ n && n ≤ 13) || n == 0x20 || n == 0x85 || n == 0xA0 || n == 0x1680 ||
    (0x2000 ≤ n && n ≤ 0x200A) || n == 0x2028 || n == 0x2029 || n == 0x202F || n == 0x205F ||
    n == 0x3000

/-- The text without its leading white space. -/
def trimStart (text : List Char) : List Char :=
  text.dropWhile isBlank

/-- The text without its trailing white space. -/
def trimEnd (text : List Char) : List Char :=
  (text.reverse.dropWhile isBlank).reverse

/-- The text without the white space at both ends. -/
def trim (text : List Char) : List Char :=
  trimEnd (trimStart text)

/-- A text is blank when it holds nothing but white space. -/
def isAllBlank (text : List Char) : Bool :=
  text.all isBlank

/-- The white space at both ends of a string removed. -/
def trimmed (s : String) : String :=
  String.ofList (trim s.toList)

/-- The pieces between the occurrences of `mark`; there is always one more than there are marks. -/
def pieces (mark : Char) : List Char → List (List Char)
  | [] => [[]]
  | c :: rest =>
    if c = mark then
      [] :: pieces mark rest
    else
      match pieces mark rest with
      | [] => [[c]]
      | piece :: others => (c :: piece) :: others

/-- The lines of a text. A line feed ends a line; a last line without one counts too. -/
def lines (text : List Char) : List (List Char) :=
  pieces '\n' text

/-- What precedes and what follows the first occurrence of `mark`, if there is one. -/
def splitFirst (mark : Char) : List Char → Option (List Char × List Char)
  | [] => none
  | c :: rest =>
    if c = mark then
      some ([], rest)
    else
      (splitFirst mark rest).map fun (before, after) => (c :: before, after)

/-- The rest of a text after `opening`, if the text starts with it. -/
def dropPrefix? (opening text : List Char) : Option (List Char) :=
  if opening.isPrefixOf text then some (text.drop opening.length) else none

end CloudSession.Text
