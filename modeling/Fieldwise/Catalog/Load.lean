import Fieldwise.Catalog.Basic
import Fieldwise.Catalog.Format
import Fieldwise.Check.Error
import Fieldwise.Document.Json.Reader
import Fieldwise.Document.Toml.Reader
import Fieldwise.Files.Path

/-!
# Types and catalogs from text

A text that is no type is named as a whole in the error. A catalog is written in JSON or in TOML.
In a file whose name ends in .json it is JSON, and in any other file TOML.
-/

set_option autoImplicit false

namespace Fieldwise

/-- Reads a type. -/
def TypeExpr.ofText (text : String) : Except CheckError TypeExpr :=
  (TypeExpr.parse text).mapError (.typeExpr text)

/-- Reads a document. -/
def Document.ofText? : DataFormat → String → Option Document
  | .json, s => Document.ofJson? s
  | .toml, s => Document.ofToml? s

/-- Reads a catalog file without checking it. -/
def CatalogFile.ofText (format : DataFormat) (text : String) : Except CheckError CatalogFile :=
  match (Document.ofText? format text).bind (CatalogFile.ofDocument? format) with
  | none => .error (.malformed format)
  | some file => .ok file

namespace Catalog

/-- Reads a catalog. -/
def ofText (format : DataFormat) (text : String) : Except CheckError Catalog :=
  match CatalogFile.ofText format text with
  | .error e => .error e
  | .ok file => (ofFile file).mapError .catalog

/-- The notation of the catalog in a file. -/
def formatOf (path : String) : DataFormat :=
  if Path.extension? path = some "json" then .json else .toml

/-- Reads a catalog from a file. -/
def load {m : Type → Type} [Monad m] (files : FileAccess m) (path : String) :
    m (Except CheckError Catalog) := do
  match ← files.readText path with
  | .error fault => return .error (.file fault)
  | .ok text => return ofText (formatOf path) text

end Catalog

end Fieldwise
