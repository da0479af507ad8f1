import Fieldwise.Catalog.Format
import Fieldwise.Check.Error
import Fieldwise.Document.Toml.Reader
import Fieldwise.Files.Path

/-!
# Manifests

A manifest lists templates with the type each of them is rendered against. The text of a
template stands in the manifest itself, or in a file beside it.
-/

set_option autoImplicit false

namespace Fieldwise

/-- Where the text of a template is found. -/
inductive TemplateOrigin where
  | inline (text : String)
  /-- A path from the directory of the manifest. -/
  | file (path : String)
  deriving DecidableEq, Repr

/-- A template of a manifest, as it is written there. -/
structure ManifestEntry where
  name : String
  type : TypeExpr
  template : Option String
  file : Option String
  deriving DecidableEq, Repr

namespace ManifestEntry

/-- The members of an entry in a data file. -/
def memberNames : List String := ["name", "type", "template", "file"]

/-- Reads an entry. -/
def ofDocument? (format : DataFormat) (d : Document) : Option ManifestEntry := do
  let members ← d.members? format memberNames
  let name ← Document.member? members "name" Document.text?
  let type ← Document.member? members "type" TypeExpr.ofDocument?
  let template ← Document.memberD members "template" (Document.optional Document.text?) none
  let file ← Document.memberD members "file" (Document.optional Document.text?) none
  return ⟨name, type, template, file⟩

/-- The one place where the text is found, if there is exactly one. -/
def origin? (entry : ManifestEntry) : Option TemplateOrigin :=
  match entry.template, entry.file with
  | some text, none => some (.inline text)
  | none, some path => some (.file path)
  | _, _ => none

end ManifestEntry

/-- The templates to check, and the directory that their files are relative to. -/
structure Manifest where
  entries : List ManifestEntry
  directory : String
  deriving DecidableEq, Repr

namespace Manifest

/-- Reads the entries of a manifest. -/
def entriesOfDocument? (d : Document) : Option (List ManifestEntry) := do
  let members ← d.members? .toml ["templates"]
  Document.memberD members "templates" (Document.listOf (ManifestEntry.ofDocument? .toml)) []

/-- Reads a manifest, each entry of which must have one source. -/
def ofToml (text directory : String) : Except CheckError Manifest :=
  match (Document.ofToml? text).bind entriesOfDocument? with
  | none => .error (.malformed .toml)
  | some entries =>
    match entries.find? fun entry => entry.origin?.isNone with
    | some entry => .error (.unclearSource entry.name)
    | none => .ok ⟨entries, directory⟩

/-- Reads a manifest from a file, which its own files lie beside. -/
def load {m : Type → Type} [Monad m] (files : FileAccess m) (path : String) :
    m (Except CheckError Manifest) := do
  match ← files.readText path with
  | .error fault => return .error (.file fault)
  | .ok text => return ofToml text (Path.parent path)

/-- The paths of the files that a manifest names. -/
def paths (manifest : Manifest) : List String :=
  manifest.entries.filterMap fun entry =>
    match entry.origin? with
    | some (.file path) => some (Path.join manifest.directory path)
    | _ => none

end Manifest

end Fieldwise
