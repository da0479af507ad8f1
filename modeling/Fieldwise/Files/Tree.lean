import Fieldwise.Files.Basic
import Fieldwise.Files.Path
import Fieldwise.Keyed

/-!
# File trees

A file tree is a machine's files held as a value, with the working directory that relative paths
start from. A path is walked name by name: each directory on the way must exist, even if two
dots leave it again.
-/

set_option autoImplicit false

namespace Fieldwise

/-- Files by their paths from the root, directories that exist even if they hold none, and the
names that lead to the working directory. -/
structure FileTree where
  files : List (String × ByteArray)
  directories : List String
  workingDirectory : List String

namespace FileTree

/-- What stands at a place. -/
inductive Place where
  | nothing
  | directory
  | file (content : ByteArray)

/-- The path that leads through the given names. -/
def pathOf (names : List String) : String :=
  "/".intercalate names

/-- A path leads to another one or past it. -/
def leadsTo (inner outer : String) : Bool :=
  inner = outer || inner.startsWith (outer ++ "/")

/-- What stands at the end of the given names. -/
def place (t : FileTree) (names : List String) : Place :=
  let path := pathOf names
  match t.files.lookup path with
  | some content => .file content
  | none =>
    if names.isEmpty || (t.directories ++ t.files.map Prod.fst).any (leadsTo · path) then
      .directory
    else .nothing

/-- The part leads nowhere or up. -/
def isDots (part : String) : Bool :=
  part = "" || part = "." || part = ".."

/-- Walks through the parts of a path, all of which lead to directories. Two dots do not leave
the root. -/
def enter (t : FileTree) : List String → List String → Except FileFault (List String)
  | here, [] => .ok here
  | here, part :: rest =>
    if part = ".." then enter t here.dropLast rest
    else if isDots part then enter t here rest
    else
      match checkName part, t.place (here ++ [part]) with
      | .error e, _ => .error e
      | _, .nothing => .error .missing
      | _, .file _ => .error .notDirectory
      | _, .directory => enter t (here ++ [part]) rest

/-- The names that a path starts from. -/
def start (t : FileTree) (path : String) : List String :=
  if Path.isAbsolute path then [] else t.workingDirectory

/-- The names that lead to the file at a path, if it does not name a directory. -/
def locate (t : FileTree) (path : String) : Except FileFault (List String) := do
  let parts := path.splitOn "/"
  let name := parts.getLast?.getD ""
  checkPath path
  let here ← t.enter (t.start path) parts.dropLast
  checkName name
  if isDots name then .error .isDirectory else return here ++ [name]

/-- Reads a file. -/
def read (t : FileTree) (path : String) : Except FileFault ByteArray := do
  match t.place (← t.locate path) with
  | .nothing => .error .missing
  | .directory => .error .isDirectory
  | .file content => return content

/-- Writes a file in a directory that exists. A slash at the end of the path asks for a
directory, whatever stands there. -/
def write (t : FileTree) (path text : String) : Except FileFault FileTree := do
  let bare := Path.withoutEndSlashes path
  checkPath path
  let names ← t.locate bare
  match t.place names with
  | .directory => .error .isDirectory
  | _ =>
    if bare = path then return { t with files := Keyed.put (pathOf names) text.toUTF8 t.files }
    else .error .isDirectory

/-- Access to the files of a tree. -/
def access : FileAccess (StateM FileTree) where
  read path := do return (← get).read path
  write path text := do
    match (← get).write path text with
    | .error e => return .error e
    | .ok t =>
      set t
      return .ok ()

end FileTree

end Fieldwise
