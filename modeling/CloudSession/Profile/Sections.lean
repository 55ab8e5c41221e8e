import CloudSession.Profile.Line
import CloudSession.Table

/-!
# Sections of a profile file

`Sections.parse` reads a whole file into its sections, each a table of properties. Reading is one
step per line; the state is the sections so far and the place in them that the next line may extend.
-/

namespace CloudSession.Profile

/-- The sections of one file by their names as written, each with its properties. -/
abbrev Sections := Table (Table String)

/-- The same sections in some order, the properties of each in some order. -/
structure Sections.IsOrderOf (listed sections : Sections) : Prop where
  names : (Table.names listed).Perm (Table.names sections)
  properties : ∀ name properties, (name, properties) ∈ listed.entries →
    ∃ written, (name, written) ∈ sections.entries ∧ properties.entries.Perm written.entries

/-- An order in which the sections of a file and their properties are gone through. The file does not
determine it, and it need not be the same when the file is read again. -/
structure Enumeration where
  list : Sections → Sections
  isOrder : ∀ sections, (list sections).IsOrderOf sections

/-- Sections and properties as they were first written. -/
def Enumeration.asWritten : Enumeration where
  list sections := sections
  isOrder _ := ⟨.refl _, fun _ properties hmem => ⟨properties, hmem, .refl _⟩⟩

/-- Where the next line stands. -/
inductive Place where
  /-- Before the first header. -/
  | start
  /-- Below a header. -/
  | inSection (name : String)
  /-- Below the definition of a property. -/
  | inProperty (name key : String)
  deriving DecidableEq, Repr

/-- The section that a property defined at this place belongs to. -/
def Place.section? : Place → Option String
  | .start => none
  | .inSection name => some name
  | .inProperty name _ => some name

/-- How far a file has been read. -/
structure Reading where
  sections : Sections := ∅
  place : Place := .start
  deriving Repr

namespace Reading

/-- Opens the section `name`, which may have been open before. -/
def openSection (reading : Reading) (name : String) : Reading where
  sections := reading.sections.alter name fun properties => properties.getD ∅
  place := .inSection name

/-- Defines the property `key` of section `name`, in place of any earlier value. -/
def define (reading : Reading) (name key value : String) : Reading where
  sections := reading.sections.alter name fun properties => (properties.getD ∅).insert key value
  place := .inProperty name key

/-- A value with one more line. An empty value gives way to the line. -/
def joinLines (value line : String) : String :=
  if value = "" then line else value ++ "\n" ++ line

/-- Adds a line to the property `key` of section `name`. -/
def extend (reading : Reading) (name key text : String) : Reading where
  sections := reading.sections.alter name fun properties =>
    (properties.getD ∅).alter key fun value => joinLines (value.getD "") text
  place := .inProperty name key

/-- Reads the next line. -/
def step (reading : Reading) : Line → Except LineFault Reading
  | .ignored => .ok reading
  | .header name => name.map reading.openSection
  | .property definition =>
    match reading.place.section? with
    | none => .error .noSection
    | some name => definition.map fun (key, value) => reading.define name key value
  | .continuation text =>
    match reading.place with
    | .inProperty name key => .ok (reading.extend name key text)
    | _ => .error .strayContinuation

end Reading

/-- Where and why a profile file cannot be read. -/
structure ParseError where
  path : String
  line : Nat
  fault : LineFault
  deriving DecidableEq, Repr

/-- The wording of a parse error. -/
def ParseError.message (error : ParseError) : String :=
  s!"error parsing {error.path} on line {error.line}:\n  {error.fault.message}"

/-- Reads lines, the first of which has the number `number`; a fault comes with the number of its
line. -/
def Reading.run (reading : Reading) (number : Nat) :
    List (List Char) → Except (Nat × LineFault) Reading
  | [] => .ok reading
  | line :: rest =>
    match reading.step (Line.read line) with
    | .error fault => .error (number, fault)
    | .ok next => next.run (number + 1) rest

/-- The sections of a text, or the number and the fault of the first line that has no place. -/
def Sections.parse (text : String) : Except (Nat × LineFault) Sections :=
  ((Reading.run {} 1 (Text.lines text.toList)).map Reading.sections)

end CloudSession.Profile
