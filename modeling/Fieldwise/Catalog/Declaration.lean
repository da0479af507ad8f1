import Fieldwise.Keyed
import Fieldwise.Text.Uppercase
import Fieldwise.TypeExpr.Basic

/-!
# Declarations of types

A declared type is either a record of fields and methods or another name for an underlying
type. An embedded field lends its own members to the record that it stands in.
-/

set_option autoImplicit false

namespace Fieldwise

/-- A field of a record. An embedded field may have the empty name; it is then called after
its type. -/
structure FieldDecl where
  name : String
  type : TypeExpr
  embedded : Bool
  deriving DecidableEq, Repr

/-- A method of a record. -/
structure MethodDecl where
  name : String
  params : List TypeExpr
  results : List TypeExpr
  deriving DecidableEq, Repr

/-- What is declared of a type. -/
structure TypeDecl where
  underlying : Option TypeExpr
  fields : List FieldDecl
  methods : List MethodDecl
  deriving DecidableEq, Repr

/-- Declarations under the names of the types, in order. -/
structure CatalogFile where
  types : List (String × TypeDecl)
  deriving DecidableEq, Repr

/-- The part of a qualified name behind its last dot or slash. -/
def baseName (name : String) : String :=
  String.ofList <|
    (name.toList.reverse.takeWhile fun c => c ≠ '.' && c ≠ '/').reverse

/-- A name that templates can reach: it starts with a capital, or is empty. -/
def isExported (name : String) : Bool :=
  match name.toList with
  | [] => true
  | c :: _ => Text.isUppercase c

namespace FieldDecl

/-- The name of a field, which an embedded field may take from its type. -/
def fieldName (f : FieldDecl) : String :=
  if f.name ≠ "" then f.name else baseName (f.type.targetName?.getD "")

/-- A field that templates can use. -/
def isVisible (f : FieldDecl) : Bool :=
  f.embedded || isExported f.fieldName

end FieldDecl

namespace MethodDecl

/-- The type of the value, if templates can call the method like a field. -/
def templateResult? (m : MethodDecl) : Option TypeExpr :=
  match m.params, m.results with
  | [], [result] => some result
  | _, _ => none

end MethodDecl

namespace TypeDecl

/-- The declaration of a record, not of another name. -/
def isStruct (d : TypeDecl) : Bool :=
  d.underlying.isNone

/-- The members that templates can use on a record, as it declares them: fields, then
methods. -/
def ownMembers (d : TypeDecl) : List (String × TypeExpr) :=
  (d.fields.filter FieldDecl.isVisible).map (fun f => (f.fieldName, f.type)) ++
    (d.methods.filter fun m => isExported m.name).filterMap fun m =>
      m.templateResult?.map fun result => (m.name, result)

/-- The names of the embedded types, in order. -/
def embeds (d : TypeDecl) : List String :=
  (d.fields.filter FieldDecl.embedded).filterMap fun f => f.type.targetName?

end TypeDecl

end Fieldwise
