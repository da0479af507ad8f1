import Fieldwise.Catalog.Acceptance
import Fieldwise.Document.Basic
import Fieldwise.Files.Basic
import Fieldwise.Template.Error

/-!
# What stops a check

The faults of templates, types, catalogs, manifests and files together, each with its wording.
A template that disagrees with its type is not among them: that is what a check finds.
-/

set_option autoImplicit false

namespace Fieldwise

/-- Why something could not be checked. -/
inductive CheckError where
  | template (e : TemplateError)
  | catalog (fault : CatalogFault)
  | typeExpr (text : String) (fault : TypeExprFault)
  /-- A template of a manifest has two sources or none. -/
  | unclearSource (name : String)
  | file (fault : FileFault)
  /-- A data file is not written in its notation or does not hold what it should. -/
  | malformed (format : DataFormat)
  deriving DecidableEq, Repr

/-- The name of a notation. -/
def DataFormat.title : DataFormat → String
  | json => "JSON"
  | toml => "TOML"

namespace CheckError

/-- What is said of a data file that cannot be used. -/
def malformedText : String := "not a document of the expected form"

/-- The wording of an error. -/
def message : CheckError → String
  | template e => e.message
  | catalog fault => fault.message
  | typeExpr text fault => "invalid type expression '" ++ text ++ "': " ++ fault.message
  | unclearSource name =>
    "invalid manifest: template '" ++ name ++
      "' needs exactly one of \x60template\x60 or \x60file\x60"
  | file fault => "IO error: " ++ fault.message
  | malformed format => format.title ++ " error: " ++ malformedText

/-- The error belongs to a single template rather than to the whole run. -/
def isTemplateError : CheckError → Bool
  | template _ => true
  | _ => false

/-- The wording of an error, followed by that of what caused it. -/
def chain : CheckError → List String
  | file fault => [(file fault).message, fault.message]
  | malformed format => [(malformed format).message, malformedText]
  | e => [e.message]

end CheckError

end Fieldwise
