import CloudSession.Text.Blank

/-!
# Lines of a profile file

A profile file consists of lines of five kinds. Blank lines and comment lines are ignored. A line
that starts with `[` opens a section. Any other line that starts at the margin defines a property,
and an indented line continues the value of the property before it.
-/

namespace CloudSession.Profile

open Text

/-- Why a line has no place in a profile file. -/
inductive LineFault where
  | headerNotClosed
  | textAfterHeader
  | noSection
  | equalsMissing
  | nameMissing
  | strayContinuation
  deriving DecidableEq, Repr

/-- The wording of a fault. -/
def LineFault.message : LineFault → String
  | .headerNotClosed => "Profile definition must end with ']'"
  | .textAfterHeader => "Unexpected trailing text after profile definition"
  | .noSection => "Expected a profile definition"
  | .equalsMissing => "Expected an '=' sign defining a property"
  | .nameMissing => "Property did not have a name"
  | .strayContinuation => "Expected a property definition, found continuation"

/-- What a line says. -/
inductive Line where
  /-- Nothing: the line is blank or a comment. -/
  | ignored
  /-- A section with this name starts. -/
  | header (name : Except LineFault String)
  /-- A property of the open section has this key and this value. -/
  | property (definition : Except LineFault (String × String))
  /-- The value of the open property goes on with this text. -/
  | continuation (text : String)

/-- A comment starts with `#` or `;`. -/
def isCommentMark (c : Char) : Bool :=
  c = '#' || c = ';'

/-- A comment line has a comment mark as its first character that is not white space. -/
def isComment (line : List Char) : Bool :=
  match trimStart line with
  | [] => false
  | c :: _ => isCommentMark c

/-- The text up to the first comment mark that follows white space; `afterBlank` says whether white
space precedes the text. -/
def dropComment (afterBlank : Bool) : List Char → List Char
  | [] => []
  | c :: rest =>
    if isCommentMark c && afterBlank then [] else c :: dropComment (isBlank c) rest

/-- A value as it counts: without its inline comment and the white space around it. -/
def valueText (text : List Char) : String :=
  String.ofList (trim (dropComment false text))

/-- Reads what follows the opening bracket of a header. -/
def readHeader (text : List Char) : Except LineFault String :=
  match splitFirst ']' text with
  | none => .error .headerNotClosed
  | some (name, rest) =>
    if isAllBlank rest || isComment rest then
      .ok (String.ofList (trim name))
    else
      .error .textAfterHeader

/-- Reads the definition of a property. -/
def readProperty (line : List Char) : Except LineFault (String × String) :=
  match splitFirst '=' line with
  | none => .error .equalsMissing
  | some (key, value) =>
    if isAllBlank key then
      .error .nameMissing
    else
      .ok (String.ofList (trim key), valueText value)

/-- Reads one line, without its line feed. -/
def Line.read (line : List Char) : Line :=
  let line := trimEnd line
  if isComment line then
    .ignored
  else
    match line with
    | [] => .ignored
    | '[' :: rest => .header (readHeader rest)
    | c :: rest =>
      if isBlank c then .continuation (valueText (c :: rest)) else .property (readProperty (c :: rest))

end CloudSession.Profile
