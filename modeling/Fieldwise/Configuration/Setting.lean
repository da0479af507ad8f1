import Fieldwise.Configuration.Basic
import Fieldwise.Decimal.Shortest
import Fieldwise.Document.Decode
import Fieldwise.Text.Lowercase

/-!
# Reading settings

A setting may be written as any scalar that can be understood as its value: a text as a number, a
truth value as a number or a word. What is not set has its default.
-/

set_option autoImplicit false

namespace Fieldwise

namespace Setting

/-- The text that a scalar is written as. -/
def text? : Document → Option String
  | .text s | .moment s => some s
  | .boolean b => some (Toml.truth b)
  | .integer n => some (toString n)
  | .decimal x => some (Decimal.render x)
  | _ => none

/-- The words for truth values, in any case. -/
def truthOfWord? (word : String) : Option Bool :=
  let word := Text.lowercase word
  if ["1", "true", "on", "yes"].contains word then some true
  else if ["0", "false", "off", "no"].contains word then some false
  else none

/-- The truth value of a scalar; a number is true unless it is zero. -/
def truth? : Document → Option Bool
  | .boolean b => some b
  | .integer n => some (n ≠ 0)
  | .decimal x => some (x != 0.0)
  | .text word => truthOfWord? word
  | _ => none

/-- The form of reports with a name, in any case. -/
def formatOfName? (name : String) : Option ReportFormat :=
  let name := Text.lowercase name
  [ReportFormat.text, ReportFormat.json].find? fun format => format.name = name

/-- The form of reports, by its name or as a table with its name for the only key. -/
def format? : Document → Option ReportFormat
  | .text name => formatOfName? name
  | .table [(name, _)] => formatOfName? name
  | _ => none

/-- The settings of a section: a table of them, or the sequence of them in their order. -/
def section? (names : List String) : Document → Option (List (String × Document))
  | .table entries => some entries
  | .sequence items => some (names.zip items)
  | _ => none

end Setting

/-- Reads a configuration. -/
def Configuration.ofDocument? (d : Document) : Option Configuration := do
  let usual : Configuration := {}
  let sections ← Setting.section? sectionNames d
  let checker ← Document.memberD sections "checker" (Setting.section? checkerNames) []
  let output ← Document.memberD sections "output" (Setting.section? outputNames) []
  let catalog ← Document.memberD checker "catalog" Setting.text? usual.catalog
  let manifest ← Document.memberD checker "manifest" Setting.text? usual.manifest
  let failFast ← Document.memberD checker "fail_fast" Setting.truth? usual.failFast
  let suggestions ← Document.memberD checker "suggestions" Setting.truth? usual.suggestions
  let format ← Document.memberD output "format" Setting.format? usual.format
  return ⟨catalog, manifest, failFast, suggestions, format⟩

end Fieldwise
