import Fieldwise.Catalog.Declaration
import Fieldwise.Document.Decode
import Fieldwise.TypeExpr.Parser

/-!
# Catalog files as documents

How declarations are written in data files, both ways: `CatalogFile.ofDocument?` reads them and
`CatalogFile.toDocument` writes them. Types are written as text. What is absent or empty is
left out where reading puts it back.
-/

set_option autoImplicit false

namespace Fieldwise

/-- Reads a type from its text. -/
def TypeExpr.ofDocument? (d : Document) : Option TypeExpr :=
  d.text?.bind fun s => (TypeExpr.parse s).toOption

/-- The text of a type. -/
def TypeExpr.toDocument (t : TypeExpr) : Document :=
  .text t.render

namespace FieldDecl

/-- Reads a field. -/
def ofDocument? (format : DataFormat) (d : Document) : Option FieldDecl := do
  let members ← d.members? format ["name", "type", "embedded"]
  let name ← Document.memberD members "name" Document.text? ""
  let type ← Document.member? members "type" TypeExpr.ofDocument?
  let embedded ← Document.memberD members "embedded" Document.boolean? false
  return ⟨name, type, embedded⟩

/-- Writes a field. -/
def toDocument (f : FieldDecl) : Document :=
  .table <|
    (if f.name = "" then [] else [("name", .text f.name)]) ++
      [("type", f.type.toDocument), ("embedded", .boolean f.embedded)]

end FieldDecl

namespace MethodDecl

/-- Reads a method. -/
def ofDocument? (format : DataFormat) (d : Document) : Option MethodDecl := do
  let members ← d.members? format ["name", "params", "results"]
  let name ← Document.member? members "name" Document.text?
  let params ← Document.memberD members "params" (Document.listOf TypeExpr.ofDocument?) []
  let results ← Document.memberD members "results" (Document.listOf TypeExpr.ofDocument?) []
  return ⟨name, params, results⟩

/-- Writes a method. -/
def toDocument (m : MethodDecl) : Document :=
  .table
    [("name", .text m.name), ("params", .sequence (m.params.map TypeExpr.toDocument)),
      ("results", .sequence (m.results.map TypeExpr.toDocument))]

end MethodDecl

namespace TypeDecl

/-- Reads a declaration. -/
def ofDocument? (format : DataFormat) (d : Document) : Option TypeDecl := do
  let members ← d.members? format ["underlying", "fields", "methods"]
  let underlying ←
    Document.memberD members "underlying" (Document.optional TypeExpr.ofDocument?) none
  let fields ←
    Document.memberD members "fields" (Document.listOf (FieldDecl.ofDocument? format)) []
  let methods ←
    Document.memberD members "methods" (Document.listOf (MethodDecl.ofDocument? format)) []
  return ⟨underlying, fields, methods⟩

/-- Writes a declaration. -/
def toDocument (d : TypeDecl) : Document :=
  .table <|
    (d.underlying.map fun type => ("underlying", type.toDocument)).toList ++
      ((if d.fields.isEmpty then []
        else [("fields", .sequence (d.fields.map FieldDecl.toDocument))]) ++
        if d.methods.isEmpty then []
        else [("methods", .sequence (d.methods.map MethodDecl.toDocument))])

end TypeDecl

namespace CatalogFile

/-- Reads a declaration under its name. -/
def entryOfDocument? (format : DataFormat) (entry : String × Document) :
    Option (String × TypeDecl) :=
  (TypeDecl.ofDocument? format entry.2).map fun decl => (entry.1, decl)

/-- Reads declarations under their names; of several under one name the last counts. -/
def typesOfDocument? (format : DataFormat) : Document → Option (List (String × TypeDecl))
  | .table entries => (entries.mapM (entryOfDocument? format)).map Keyed.ofList
  | _ => none

/-- Reads a catalog file. -/
def ofDocument? (format : DataFormat) (d : Document) : Option CatalogFile := do
  let members ← d.members? format ["types"]
  let types ← Document.memberD members "types" (typesOfDocument? format) []
  return ⟨types⟩

/-- Writes a catalog file. -/
def toDocument (file : CatalogFile) : Document :=
  .table [("types", .table (file.types.map fun (name, decl) => (name, decl.toDocument)))]

end CatalogFile

end Fieldwise
