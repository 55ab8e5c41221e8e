import CloudSession.Profile.Source

/-!
# Loading profiles

`load` merges a list of files, of which any may be missing; `loadRequired` reads one file that has to
exist. Both select the profile that the caller names, else the one that the environment names, else
`default`. The sections of a file are gone through in an order that is not determined by the file, and
that may be another one with every load.
-/

namespace CloudSession.Profile

/-- The sections of a file. -/
def File.parse (file : File) : Except ParseError Sections :=
  match Sections.parse file.contents with
  | .ok sections => .ok sections
  | .error (line, fault) => .error { path := file.path.getD "<memory>", line, fault }

/-- The selected profile: the explicit one, else the one of the environment, else `default`. -/
def selectedProfile (env : Environment) (explicit : Option String) : String :=
  (explicit <|> env.getNonEmpty? "AWS_PROFILE").getD "default"

/-- One file merged into a set, its sections in the given order. -/
def ProfileSet.addFile (set : ProfileSet) (file : File) (order : Enumeration) :
    Logged (Except ParseError ProfileSet) :=
  match file.parse with
  | .error error => pure (.error error)
  | .ok sections => do
    Logged.warn (mergeWarnings file.kind (order.list sections))
    pure (.ok (set.merge file.kind (order.list sections)))

/-- Files merged into a set, one after the other, up to the first that cannot be parsed. -/
def ProfileSet.addFiles (set : ProfileSet) :
    List (File × Enumeration) → Logged (Except ParseError ProfileSet)
  | [] => pure (.ok set)
  | (file, order) :: rest => do
    match ← set.addFile file order with
    | .error error => pure (.error error)
    | .ok next => next.addFiles rest

/-- The profiles of several files, later ones winning, with the sections of each file in the order
that comes with it. -/
def loadIn (env : Environment) (files : FileStore) (sources : List (Source × Enumeration))
    (explicit : Option String) : Logged (Except ParseError ProfileSet) := do
  let loaded ← readAll env files (sources.map Prod.fst)
  ProfileSet.addFiles { selected := selectedProfile env explicit }
    (loaded.zip (sources.map Prod.snd))

/-- The orders in which the sections of files are gone through: those of the files of a list, by their
places in it, and that of a file that is loaded by itself, by its kind. -/
structure Orders where
  listed : Nat → Enumeration := fun _ => .asWritten
  alone : Kind → Enumeration := fun _ => .asWritten

/-- The profiles of several files, later ones winning. -/
def load (env : Environment) (files : FileStore) (sources : List Source)
    (explicit : Option String) (listed : Nat → Enumeration := fun _ => .asWritten) :
    Logged (Except ParseError ProfileSet) :=
  loadIn env files (sources.mapIdx fun place source => (source, listed place)) explicit

/-- Why the profiles of a file that has to exist cannot be loaded. -/
inductive LoadError where
  | read (error : ReadError)
  | parse (error : ParseError)
  deriving DecidableEq, Repr

/-- The wording of a load error. -/
def LoadError.message : LoadError → String
  | .read error => error.message
  | .parse error => error.message

/-- The profiles of one file that has to exist. -/
def loadRequired (env : Environment) (files : FileStore) (source : Source)
    (explicit : Option String) (order : Enumeration := .asWritten) :
    Logged (Except LoadError ProfileSet) := do
  match ← source.readRequired env files with
  | .error error => pure (.error (.read error))
  | .ok file =>
    match ← ProfileSet.addFile { selected := selectedProfile env explicit } file order with
    | .error error => pure (.error (.parse error))
    | .ok set => pure (.ok set)

end CloudSession.Profile
