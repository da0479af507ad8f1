import Fieldwise.Configuration.Layer
import Fieldwise.Files.Path

/-!
# Loading a configuration

Settings are found in files in the working directory, in the personal directory of
configurations, in one file given by name, and in the environment, each stronger than those
before. Only the file given by name has to exist, but what exists must be well formed.
-/

set_option autoImplicit false

namespace Fieldwise

namespace Configuration

/-- The files in the working directory, from the weakest. -/
def places : List String :=
  ["templates-checker.toml", ".templates-checker.toml", "config/templates-checker.toml"]

/-- The file in the directory of configurations. -/
def personalFile : String := "templates-checker/templates-checker.toml"

/-- The personal directory of configurations. -/
def personalDirectory? (environment : List (String × String)) : Option String :=
  let stated := (environment.lookup "XDG_CONFIG_HOME").filter Path.isAbsolute
  let home := (environment.lookup "HOME").filter (· ≠ "")
  stated <|> home.map (Path.join · ".config")

/-- The notation of a file, by the end of its name. -/
def formatOf? (path : String) : Option DataFormat :=
  match Path.extension? path with
  | some "toml" => some .toml
  | some "json" => some .json
  | _ => none

/-- A path that names a directory and not a file in it. -/
def namesDirectory (path : String) : Bool :=
  ["", ".", ".."].contains (String.ofList (Path.fileName path))

variable {m : Type → Type} [Monad m]

/-- The settings of a file that is not found or holds no text. -/
def absentLayer (required : Bool) : Option Layer :=
  if required then none else some []

/-- Reads the first of some files that exists. -/
def readFirst (files : FileAccess m) (required : Bool) :
    List (String × DataFormat) → m (Option Layer)
  | [] => pure (absentLayer required)
  | (path, format) :: rest => do
    match ← files.readText path with
    | .ok text => return Layer.ofText? format text
    | .error .notText => return absentLayer required
    | .error _ => readFirst files required rest

/-- Reads the settings of a file. If it does not exist, the name may lack its ending. -/
def readLayer (files : FileAccess m) (required : Bool) (path : String) : m (Option Layer) := do
  match ← files.readText path with
  | .ok text => return (formatOf? path).elim (absentLayer required) (Layer.ofText? · text)
  | .error .notText => return absentLayer required
  | .error _ =>
    let bare := Path.withoutEmptyEnd path
    if namesDirectory bare then return absentLayer required
    else readFirst files required [(bare ++ ".toml", .toml), (bare ++ ".json", .json)]

/-- Reads the settings of the personal file if its place is taken. -/
def readPersonal (files : FileAccess m) (environment : List (String × String)) :
    m (Option Layer) := do
  match personalDirectory? environment with
  | none => return some []
  | some directory =>
    let path := Path.join directory personalFile
    match ← files.read path with
    | .ok _ | .error .isDirectory => readLayer files false path
    | .error _ => return some []

/-- Reads the settings of the file given by name, if one is. -/
def readNamed (files : FileAccess m) : Option String → m (Option Layer)
  | none => pure (some [])
  | some path => readLayer files true path

/-- Loads the configuration, with the settings of the file at `path` if one is given. -/
def load (files : FileAccess m) (environment : List (String × String))
    (path : Option String) : m (Option Configuration) := do
  let usual ← places.mapM (readLayer files false)
  let personal ← readPersonal files environment
  let named ← readNamed files path
  let found := usual ++ [personal, named, some (Layer.ofEnvironment environment)]
  return (found.mapM id).bind fun layers => ofDocument? (Layer.merge layers)

end Configuration

end Fieldwise
