import Fieldwise.Check.Error
import Fieldwise.Document.Json.Printer
import Fieldwise.Validation

/-!
# Reports

What came of each template of a manifest, in the order of the manifest, and the two forms in
which it is printed.
-/

set_option autoImplicit false

namespace Fieldwise

/-- What came of one template. -/
inductive Outcome where
  | valid
  | invalid (mismatches : List Mismatch)
  /-- It could not be read, parsed or built. -/
  | failed (reason : String)
  deriving DecidableEq, Repr

namespace Outcome

/-- The template fits its type if nothing was found. -/
def ofVerdict (v : Verdict) : Outcome :=
  if v.isValid then valid else invalid v.mismatches

/-- The name of an outcome. -/
def status : Outcome → String
  | valid => "valid"
  | invalid _ => "invalid"
  | failed _ => "failed"

/-- What is told of an outcome besides its name. -/
def details : Outcome → List (String × Document)
  | valid => []
  | invalid mismatches =>
    [("mismatches", .sequence (mismatches.map Mismatch.toDocument))]
  | failed reason => [("error", .text reason)]

end Outcome

/-- The outcome for a template and the type it was checked against. -/
structure TemplateReport where
  name : String
  type : TypeExpr
  outcome : Outcome
  deriving DecidableEq, Repr

namespace TemplateReport

/-- The report as a document. -/
def toDocument (r : TemplateReport) : Document :=
  .table <|
    [("name", .text r.name), ("type", .text r.type.render), ("status", .text r.outcome.status)]
      ++ r.outcome.details

/-- The lines of the report. -/
def lines (r : TemplateReport) : List String :=
  let label := r.name ++ " (" ++ r.type.render ++ ")"
  match r.outcome with
  | .valid => ["✅ " ++ label]
  | .invalid mismatches =>
    ("❌ " ++ label ++ " - " ++ toString mismatches.length ++ " mismatch(es)") ::
      mismatches.map fun m => "   └─ " ++ m.render
  | .failed reason => ["⚠️  " ++ label ++ " - " ++ reason]

end TemplateReport

/-- The outcomes for the templates of a manifest, in order. -/
structure BatchReport where
  templates : List TemplateReport
  deriving DecidableEq, Repr

namespace BatchReport

/-- How many outcomes have a status. -/
def count (r : BatchReport) (status : Outcome → Bool) : Nat :=
  r.templates.countP fun template => status template.outcome

/-- How many templates there are. -/
def total (r : BatchReport) : Nat :=
  r.templates.length

/-- How many templates fit their types. -/
def valid (r : BatchReport) : Nat :=
  r.count fun | .valid => true | _ => false

/-- How many templates do not fit their types. -/
def invalid (r : BatchReport) : Nat :=
  r.count fun | .invalid _ => true | _ => false

/-- How many templates could not be checked. -/
def failed (r : BatchReport) : Nat :=
  r.count fun | .failed _ => true | _ => false

/-- Every template was checked and fits its type. -/
def isSuccess (r : BatchReport) : Bool :=
  r.valid = r.total

/-- The numbers of outcomes in one line. -/
def summary (r : BatchReport) : String :=
  toString r.total ++ " template(s): " ++ toString r.valid ++ " valid, " ++ toString r.invalid
    ++ " invalid, " ++ toString r.failed ++ " failed"

/-- The report for a reader: the outcomes, an empty line and the summary. -/
def toText (r : BatchReport) : String :=
  "\n".intercalate (r.templates.flatMap TemplateReport.lines ++ ["", r.summary, ""])

/-- The report as a document. -/
def toDocument (r : BatchReport) : Document :=
  .table [("templates", .sequence (r.templates.map TemplateReport.toDocument))]

/-- The report for a program. -/
def toJson (r : BatchReport) : String :=
  r.toDocument.toPrettyJson

end BatchReport

end Fieldwise
