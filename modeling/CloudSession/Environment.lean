import CloudSession.Text.Utf8

/-!
# Environment and files

The process environment and the file system, as far as configuration reads them: variables by name
and file contents by path. Paths are compared as text.
-/

namespace CloudSession

/-- Environment variables and their values. -/
structure Environment where
  entries : List (String × String) := []
  deriving Repr

namespace Environment

/-- The value of a variable; an empty value is a value. -/
def get? (env : Environment) (name : String) : Option String :=
  (env.entries.find? (·.1 = name)).map Prod.snd

/-- The value of a variable, if it is set and not empty. -/
def getNonEmpty? (env : Environment) (name : String) : Option String :=
  (env.get? name).filter (· ≠ "")

/-- The value of the first variable of `names` that is set and not empty. -/
def firstNonEmpty (env : Environment) (names : List String) : Option String :=
  names.findSome? env.getNonEmpty?

end Environment

/-- Why a file cannot be read as text. -/
inductive ReadFault where
  | notFound
  | notUtf8 (fault : Text.Utf8.Fault)
  deriving DecidableEq, Repr

/-- The wording of a read fault. -/
def ReadFault.message : ReadFault → String
  | .notFound => "entity not found"
  | .notUtf8 fault => fault.message

/-- File contents by path. -/
structure FileStore where
  files : List (String × List UInt8) := []
  deriving Repr

namespace FileStore

/-- The contents of the file at `path`. -/
def read? (store : FileStore) (path : String) : Option (List UInt8) :=
  (store.files.find? (·.1 = path)).map Prod.snd

/-- The contents of the file at `path` as text. -/
def readText (store : FileStore) (path : String) : Except ReadFault String :=
  match store.read? path with
  | none => .error .notFound
  | some bytes =>
    match Text.Utf8.decode bytes with
    | .ok text => .ok text
    | .error fault => .error (.notUtf8 fault)

end FileStore

end CloudSession
