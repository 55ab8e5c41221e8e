import CloudSession.Environment
import CloudSession.Profile.Set

/-!
# Where profile files are

A profile file is the default file of its kind, a file at a given path, or text at hand. The
environment can move the default files, and a path whose first component is `~` starts at the home
directory.
-/

namespace CloudSession.Profile

open Text

/-- The place of the default file of a kind. -/
def Kind.defaultPath : Kind → String
  | .config => "~/.aws/config"
  | .credentials => "~/.aws/credentials"

/-- The variable that moves the default file of a kind. -/
def Kind.overrideVariable : Kind → String
  | .config => "AWS_CONFIG_FILE"
  | .credentials => "AWS_SHARED_CREDENTIALS_FILE"

/-- A profile file to read. -/
inductive Source where
  /-- The default file of its kind. -/
  | default (kind : Kind)
  /-- The file at `path`. -/
  | file (kind : Kind) (path : String)
  /-- Text at hand. -/
  | contents (kind : Kind) (text : String)
  deriving DecidableEq, Repr

namespace Source

/-- The kind of file. -/
def kind : Source → Kind
  | .default kind => kind
  | .file kind _ => kind
  | .contents kind _ => kind

/-- The default config file and then the default credentials file. -/
def defaults : List Source :=
  [.default .config, .default .credentials]

/-- The default credentials file alone. -/
def credentialsOnly : List Source :=
  [.default .credentials]

end Source

/-- A profile file that has been read. -/
structure File where
  kind : Kind
  /-- The path after expansion, if the file has one. -/
  path : Option String
  contents : String
  deriving DecidableEq, Repr

/-- Why a profile file that has to exist cannot be read. -/
inductive ReadError where
  | notFound (path : String)
  | unreadable (path : String) (fault : ReadFault)
  deriving DecidableEq, Repr

/-- The wording of a read error. -/
def ReadError.message : ReadError → String
  | .notFound path => s!"profile file {path} not found"
  | .unreadable path fault => s!"failed to read profile file {path}: {fault.message}"

/-- The path `base` extended by one component, with one separator between them. -/
def joinPath (base component : List Char) : List Char :=
  match base.getLast? with
  | none => component
  | some '/' => base ++ component
  | some _ => base ++ '/' :: component

/-- The components of a path below its first one, if that is `~`. Empty components and `.` do not
count. -/
def homeRelative? (path : String) : Option (List (List Char)) :=
  match pieces '/' path.toList with
  | ['~'] :: rest => some (rest.filter fun component => component ≠ [] && component ≠ ['.'])
  | _ => none

/-- The path with a leading `~` replaced by the home directory, or by nothing if that is unknown. -/
def expandHome (env : Environment) (path : String) : Logged String :=
  match homeRelative? path with
  | none => pure path
  | some components => do
    match env.get? "HOME" with
    | some home => pure (String.ofList (components.foldl joinPath home.toList))
    | none =>
      Logged.warn [.homeUnknown]
      pure (String.ofList (components.foldl joinPath []))

/-- The file at `path`, which has to exist. -/
def readPath (env : Environment) (files : FileStore) (kind : Kind) (path : String) :
    Logged (Except ReadError File) := do
  let expanded ← expandHome env path
  match files.readText expanded with
  | .ok contents => pure (.ok { kind, path := some expanded, contents })
  | .error .notFound => pure (.error (.notFound expanded))
  | .error fault => pure (.error (.unreadable expanded fault))

/-- The file of a source, which has to exist. -/
def Source.readRequired (env : Environment) (files : FileStore) :
    Source → Logged (Except ReadError File)
  | .contents kind text => pure (.ok { kind, path := none, contents := text })
  | .file kind path => readPath env files kind path
  | .default kind =>
    readPath env files kind ((env.get? kind.overrideVariable).getD kind.defaultPath)

/-- The warnings about a file that should have been found. A missing default file is nothing to warn
about unless the environment names it. -/
def Source.missingWarnings (env : Environment) : Source → List Warning
  | .default kind => if (env.get? kind.overrideVariable).isSome then [.overriddenFileMissing] else []
  | _ => [.fileMissing]

/-- The file of a source. A file that cannot be read counts as empty. -/
def Source.readLenient (env : Environment) (files : FileStore) (source : Source) : Logged File := do
  match ← source.readRequired env files with
  | .ok loaded => pure loaded
  | .error (.notFound path) =>
    Logged.warn (source.missingWarnings env)
    pure { kind := source.kind, path := some path, contents := "" }
  | .error (.unreadable path _) =>
    Logged.warn [.fileUnreadable]
    pure { kind := source.kind, path := some path, contents := "" }

/-- The files of several sources, in order. -/
def readAll (env : Environment) (files : FileStore) : List Source → Logged (List File)
  | [] => pure []
  | source :: rest => do
    let file ← source.readLenient env files
    let others ← readAll env files rest
    pure (file :: others)

end CloudSession.Profile
