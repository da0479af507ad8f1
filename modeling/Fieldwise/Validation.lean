import Fieldwise.CallTree.Basic
import Fieldwise.Catalog.Basic
import Fieldwise.Document.Basic
import Fieldwise.Text.Similarity

/-!
# Checking a call tree against a type

`Catalog.validate` walks down a call tree and the shape of a type together and collects every
place where they disagree. A disagreement ends the walk below its place and nowhere else.

A field that a record lacks may be near in spelling to one that it has, which is then
suggested. How names are compared does not matter for what is reported: the comparison is a
parameter.
-/

set_option autoImplicit false

namespace Fieldwise

/-! ## Mismatches -/

/-- A place where a template and a type disagree, written like `.items[].name`, and how. -/
structure Mismatch where
  breadcrumb : String
  message : String
  suggestion : Option String
  deriving DecidableEq, Repr

/-- The mismatch in one line. -/
def Mismatch.render (m : Mismatch) : String :=
  let line := "path: '" ++ m.breadcrumb ++ "', error: " ++ m.message
  match m.suggestion with
  | none => line
  | some name => line ++ " (did you mean '" ++ name ++ "'?)"

/-- The mismatch as a document; a suggestion is there only if there is one. -/
def Mismatch.toDocument (m : Mismatch) : Document :=
  .table <|
    [("breadcrumb", .text m.breadcrumb), ("message", .text m.message)] ++
      (m.suggestion.map fun name => ("suggestion", .text name)).toList

/-- The mismatches of one template, in the order in which they were found. -/
structure Verdict where
  mismatches : List Mismatch
  deriving DecidableEq, Repr

namespace Verdict

/-- Nothing found yet. -/
def empty : Verdict := ⟨[]⟩

/-- Template and type agree. -/
def isValid (v : Verdict) : Bool :=
  v.mismatches.isEmpty

/-- Adds a mismatch behind the others. -/
def push (v : Verdict) (m : Mismatch) : Verdict :=
  ⟨v.mismatches ++ [m]⟩

/-- The verdict as a document. -/
def toDocument (v : Verdict) : Document :=
  .table
    [("is_valid", .boolean v.isValid),
      ("mismatches", .sequence (v.mismatches.map Mismatch.toDocument))]

end Verdict

/-- The written form of a step. -/
def Step.render : Step → String
  | element => "[]"
  | field key => "." ++ key

/-- The written form of a path. -/
def renderPath (path : List Step) : String :=
  String.join (path.map Step.render)

/-! ## Suggestions -/

/-- Finds a name to suggest in place of a missing one. -/
abbrev Suggester := String → List String → Option String

/-- Suggests nothing. -/
def noSuggestion : Suggester := fun _ _ => none

section Closest

variable {α : Type} [LT α] [LE α] [DecidableLT α] [DecidableLE α]

/-- The name that scores best among those that reach the threshold; of several equally good
ones the first. -/
def closest (score : String → String → α) (threshold : α) : Suggester := fun key names =>
  (names.foldl
    (fun best name =>
      let s := score key name
      if threshold ≤ s then
        match best with
        | none => some (name, s)
        | some (other, t) => if t < s then some (name, s) else some (other, t)
      else best)
    (none : Option (String × α))).map Prod.fst

end Closest

/-- Suggests the most similar name, if it is similar enough. -/
def suggestSimilar : Suggester :=
  closest Text.similarity 0.8

/-! ## The walk -/

/-- The ways in which a tree and a type disagree. -/
inductive Disagreement where
  | unknownType (name : String)
  | partOfScalar
  | structAsList
  | listAsStruct
  | missingField (key : String)
  deriving DecidableEq, Repr

/-- The wording of a disagreement. -/
def Disagreement.message : Disagreement → String
  | unknownType name => "unknown type '" ++ name ++ "'"
  | partOfScalar => "expected further structure on a scalar field"
  | structAsList => "expecting a struct, got a list instead"
  | listAsStruct => "expecting a list, got a struct instead"
  | missingField key => "field '" ++ key ++ "' is missing"

/-- A disagreement at the end of a path. -/
def Disagreement.at (d : Disagreement) (path : List Step) : Mismatch :=
  ⟨renderPath path, d.message, none⟩

/-- A field that a record lacks. -/
def missingField (suggest : Suggester) (fields : FieldSet) (path : List Step) (key : String) :
    Mismatch :=
  { (Disagreement.missingField key).at path with suggestion := suggest key fields.names }

namespace Catalog

mutual

/-- The mismatches between the tree at the end of `path` and a type. -/
def mismatches (c : Catalog) (suggest : Suggester) (path : List Step) (type : TypeExpr) :
    CallTree → List Mismatch
  | .node element fields =>
    match c.settle type with
    | .unknown name => [(Disagreement.unknownType name).at path]
    | .scalar =>
      if (CallTree.node element fields).isLeaf then [] else [Disagreement.partOfScalar.at path]
    | .slice inner =>
      if (CallTree.node element fields).members.isEmpty then
        elementMismatches c suggest path [inner] element
      else [Disagreement.listAsStruct.at path]
    | .map key value =>
      if (CallTree.node element fields).members.isEmpty then
        elementMismatches c suggest path [key, value] element
      else [Disagreement.listAsStruct.at path]
    | .struct known =>
      if element.isSome then [Disagreement.structAsList.at path]
      else fieldsMismatches c suggest path known fields
termination_by structural t => t

/-- The mismatches between the elements at `path` and each of some types: which of the keys and
values of a map a template uses cannot be told, so both have to fit. -/
def elementMismatches (c : Catalog) (suggest : Suggester) (path : List Step)
    (types : List TypeExpr) : Option CallTree → List Mismatch
  | none => []
  | some t =>
    types.flatMap fun type => mismatches c suggest (path ++ [.element]) type t
termination_by structural t => t

/-- The mismatches between the fields at `path` and the members of a record. -/
def fieldsMismatches (c : Catalog) (suggest : Suggester) (path : List Step)
    (known : FieldSet) : Option (List (String × CallTree)) → List Mismatch
  | none => []
  | some fs => entriesMismatches c suggest path known fs
termination_by structural fs => fs

/-- The mismatches of several fields, in order. -/
def entriesMismatches (c : Catalog) (suggest : Suggester) (path : List Step)
    (known : FieldSet) : List (String × CallTree) → List Mismatch
  | [] => []
  | entry :: rest =>
    entryMismatches c suggest path known entry ++ entriesMismatches c suggest path known rest
termination_by structural fs => fs

/-- The mismatches of one field. -/
def entryMismatches (c : Catalog) (suggest : Suggester) (path : List Step)
    (known : FieldSet) : String × CallTree → List Mismatch
  | (key, t) =>
    match known.get? key with
    | some type => mismatches c suggest (path ++ [.field key]) type t
    | none => [missingField suggest known (path ++ [.field key]) key]
termination_by structural entry => entry

end

/-- Checks a tree against a type. The mismatches are added to the verdict as they come. -/
def validate (c : Catalog) (suggest : Suggester) (t : CallTree) (type : TypeExpr) : Verdict :=
  (c.mismatches suggest [] type t).foldl Verdict.push .empty

end Catalog

end Fieldwise
