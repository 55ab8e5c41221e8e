import CloudSession.Profile.Sections
import CloudSession.Warning

/-!
# Profile sets

The sections of several files are merged into one set of profiles, in which one profile is selected.
What is merged later wins, property by property. Which profile a section speaks about depends on the
kind of its file.
-/

namespace CloudSession.Profile

open Text

/-- The kind of a profile file. -/
inductive Kind where
  /-- Sections other than `default` are written `[profile name]`. -/
  | config
  /-- Sections are written `[name]`. -/
  | credentials
  deriving DecidableEq, Repr

/-- A property and its key. -/
structure Property where
  key : String
  value : String
  deriving DecidableEq, Repr

/-- A named profile and its properties by their keys. -/
structure Entry where
  name : String
  stored : Table Property := ∅
  deriving Repr

namespace Entry

/-- The values of the properties. -/
def properties (profile : Entry) : Table String :=
  ⟨profile.stored.entries.map fun (key, property) => (key, property.value)⟩

/-- The value of a property. -/
def get? (profile : Entry) (key : String) : Option String :=
  (profile.stored.get? key).map Property.value

/-- The value of a property, if it is defined and not empty. -/
def getNonEmpty? (profile : Entry) (key : String) : Option String :=
  (profile.get? key).filter (· ≠ "")

end Entry

/-- The characters of identifiers: ASCII letters and digits and `_ - / . % @ : +`. -/
def isIdentifierChar (c : Char) : Bool :=
  c.isAlphanum || c ∈ ['_', '-', '/', '.', '%', '@', ':', '+']

/-- Profile names and property keys are identifiers. -/
def isIdentifier (name : String) : Bool :=
  name ≠ "" && name.toList.all isIdentifierChar

/-- What follows `profile ` in the name of a section, without the white space around it. -/
def prefixedName? (name : String) : Option String :=
  (dropPrefix? "profile ".toList name.toList).map fun rest => String.ofList (trim rest)

/-- Whether some section of a config file is the prefixed form of `default`. -/
def hasPrefixedDefault (kind : Kind) (sections : Sections) : Bool :=
  kind = .config && sections.names.any fun name => prefixedName? name = some "default"

/-- The name that the section `name` gives its profile, or the warning with which the section is left
out. `shadowed` says that the file also has the prefixed form of `default`. -/
def candidateOf (kind : Kind) (shadowed : Bool) (name : String) : Except Warning String :=
  match kind with
  | .credentials => .ok name
  | .config =>
    if name = "default" then
      if shadowed then .error .defaultProfileShadowed else .ok name
    else
      match prefixedName? name with
      | some rest => .ok rest
      | none => .error .profilePrefixMissing

/-- The profile that the section `name` speaks about, or the warning with which it is left out. -/
def profileOf (kind : Kind) (shadowed : Bool) (name : String) : Except Warning String :=
  match candidateOf kind shadowed name with
  | .error warning => .error warning
  | .ok profile =>
    if isIdentifier profile then .ok profile else .error (.profileNameInvalid profile)

/-- The profiles of all files read so far, one of them selected. -/
structure ProfileSet where
  profiles : Table Entry := ∅
  selected : String := "default"
  deriving Repr

namespace ProfileSet

/-- The profile called `name`. -/
def profile? (set : ProfileSet) (name : String) : Option Entry :=
  set.profiles.get? name

/-- Property `key` of the selected profile. -/
def get? (set : ProfileSet) (key : String) : Option String :=
  (set.profile? set.selected).bind (·.get? key)

/-- The same profiles with another one selected. -/
def select (set : ProfileSet) (name : String) : ProfileSet :=
  { set with selected := name }

/-- Property definitions merged into a table: later ones win and keys that are no identifiers are
left out. -/
def mergeProperties (stored : Table Property) (definitions : List (String × String)) :
    Table Property :=
  definitions.foldl
    (fun table (key, value) =>
      if isIdentifier key then table.insert key { key, value } else table)
    stored

/-- One section merged into the set. -/
def mergeSection (set : ProfileSet) (kind : Kind) (shadowed : Bool) (name : String)
    (properties : Table String) : ProfileSet :=
  match profileOf kind shadowed name with
  | .error _ => set
  | .ok profile =>
    { set with
      profiles := set.profiles.alter profile fun entry =>
        let entry := entry.getD { name := profile }
        { entry with stored := mergeProperties entry.stored properties.entries } }

/-- The sections of one file merged into the set, in the order in which they are listed. -/
def merge (set : ProfileSet) (kind : Kind) (sections : Sections) : ProfileSet :=
  sections.entries.foldl
    (fun set (name, properties) =>
      set.mergeSection kind (hasPrefixedDefault kind sections) name properties)
    set

end ProfileSet

/-- The warnings about one section: that it is left out, or which of its keys are. -/
def sectionWarnings (kind : Kind) (shadowed : Bool) (name : String) (properties : Table String) :
    List Warning :=
  match profileOf kind shadowed name with
  | .error warning => [warning]
  | .ok _ => (properties.names.filter (!isIdentifier ·)).map .keyInvalid

/-- The warnings about the sections of one file. -/
def mergeWarnings (kind : Kind) (sections : Sections) : List Warning :=
  sections.entries.flatMap fun (name, properties) =>
    sectionWarnings kind (hasPrefixedDefault kind sections) name properties

end CloudSession.Profile
