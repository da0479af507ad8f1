import Fieldwise.CallTree.Build
import Fieldwise.Validation

/-!
# Checking one template

`Catalog.checkTemplate` reads a template, builds its call tree and walks it against a type.
-/

set_option autoImplicit false

namespace Fieldwise

/-- How missing fields are answered: with a suggestion, or without. -/
def Suggester.ofChoice (suggestions : Bool) : Suggester :=
  if suggestions then suggestSimilar else noSuggestion

/-- Checks the text of a template against a type. -/
def Catalog.checkTemplate (c : Catalog) (suggest : Suggester) (source : String)
    (type : TypeExpr) : Except TemplateError Verdict :=
  match CallTree.ofSource source with
  | .error e => .error e
  | .ok t => .ok (c.validate suggest t type)

end Fieldwise
