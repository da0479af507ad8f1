import Fieldwise.Check.Batch
import Fieldwise.Document.Toml.Printer

/-!
# Configurations

What can be set for a run: the catalog and the manifest, how the manifest is checked, and how
the report is written. A configuration has two sections, `checker` and `output`.
-/

set_option autoImplicit false

namespace Fieldwise

/-- How a report is written. -/
inductive ReportFormat where
  | text
  | json
  deriving DecidableEq, Repr

/-- The name of a form. -/
def ReportFormat.name : ReportFormat → String
  | text => "text"
  | json => "json"

/-- What is set for a run. -/
structure Configuration where
  /-- The path of the type catalog. -/
  catalog : String := "types.toml"
  /-- The path of the manifest. -/
  manifest : String := "templates.toml"
  /-- The first template that cannot be checked ends the run. -/
  failFast : Bool := false
  /-- Missing fields are answered with a similar name. -/
  suggestions : Bool := true
  format : ReportFormat := .text
  deriving DecidableEq, Repr

namespace Configuration

/-- How manifests are checked. -/
def options (c : Configuration) : CheckOptions :=
  ⟨c.failFast, c.suggestions⟩

/-- The names of the sections. -/
def sectionNames : List String := ["checker", "output"]

/-- The names of the settings in the section `checker`. -/
def checkerNames : List String := ["catalog", "manifest", "fail_fast", "suggestions"]

/-- The names of the settings in the section `output`. -/
def outputNames : List String := ["format"]

/-- The configuration as a document. -/
def toDocument (c : Configuration) : Document :=
  .table
    [("checker", .table
        [("catalog", .text c.catalog), ("manifest", .text c.manifest),
          ("fail_fast", .boolean c.failFast), ("suggestions", .boolean c.suggestions)]),
      ("output", .table [("format", .text c.format.name)])]

/-- The configuration as it is saved. -/
def toToml (c : Configuration) : String :=
  Toml.writeTable "checker"
      [("catalog", Toml.quote c.catalog), ("manifest", Toml.quote c.manifest),
        ("fail_fast", Toml.truth c.failFast), ("suggestions", Toml.truth c.suggestions)]
    ++ "\n" ++ Toml.writeTable "output" [("format", Toml.quote c.format.name)]

end Configuration

end Fieldwise
