import Fieldwise.Catalog.Builder

/-!
# Catalogs

A catalog knows the built-in scalars and the types of an accepted file, and tells the shape of
a type expression: a scalar, a record with its members, a pointer, a list or a map.

`Catalog.resolve` gives the shape of a type as it is written, other names followed.
`Catalog.settle` goes on through pointers, which templates do not see.
-/

set_option autoImplicit false

namespace Fieldwise

/-- What a known name stands for. -/
inductive CatalogEntry where
  | scalar
  | alias (underlying : TypeExpr)
  | struct (fields : FieldSet)
  deriving DecidableEq, Repr

/-- The known names, in order. -/
structure Catalog where
  entries : List (String × CatalogEntry)
  deriving DecidableEq, Repr

/-- The shape of a type, as far as templates can tell. -/
inductive TypeShape where
  | scalar
  | struct (fields : FieldSet)
  | pointer (target : TypeExpr)
  | slice (element : TypeExpr)
  | map (key value : TypeExpr)
  deriving DecidableEq, Repr

/-- The shape of a type expression that is not a name. -/
def TypeExpr.compositeShape? : TypeExpr → Option TypeShape
  | .named _ => none
  | .pointer target => some (.pointer target)
  | .slice element | .array _ element => some (.slice element)
  | .map key value => some (.map key value)

/-- The shape of a type once pointers are followed. `unknown` holds the name that nothing is
known of. -/
inductive SettledShape where
  | unknown (name : String)
  | scalar
  | struct (fields : FieldSet)
  | slice (element : TypeExpr)
  | map (key value : TypeExpr)
  deriving DecidableEq, Repr

namespace Catalog

/-- The entries of the built-in scalars. -/
def builtins : List (String × CatalogEntry) :=
  Keyed.ofList (builtinScalars.map fun name => (name, .scalar))

/-- A catalog of the built-in scalars only. -/
def builtin : Catalog := ⟨builtins⟩

/-- Adds entries one after another, each in place of what was there. -/
def extend (c : Catalog) (entries : List (String × CatalogEntry)) : Catalog :=
  ⟨entries.foldl (fun present entry => Keyed.put entry.1 entry.2 present) c.entries⟩

/-- The entries of declared types, one after another. What has been found for the records so far
is passed on. -/
def buildEntries (types : List (String × TypeDecl)) (done : DepthFields.Memo) :
    List (String × TypeDecl) → Except CatalogFault (List (String × CatalogEntry))
  | [] => .ok []
  | (name, decl) :: rest =>
    match decl.underlying with
    | some underlying =>
      (buildEntries types done rest).map fun entries => (name, .alias underlying) :: entries
    | none =>
      match DepthFields.build types [] done name with
      | .error e => .error e
      | .ok (fields, done) =>
        (buildEntries types done rest).map fun entries =>
          (name, .struct fields.toFieldSet) :: entries

/-- The catalog of a file, or the first fault of the file. -/
def ofFile (file : CatalogFile) : Except CatalogFault Catalog :=
  match file.check with
  | .error e => .error e
  | .ok () => (buildEntries file.types [] file.types).map builtin.extend

/-- The name is known. -/
def contains (c : Catalog) (name : String) : Bool :=
  Keyed.contains name c.entries

/-- The members that templates can use on a declared record. -/
def fieldSet? (c : Catalog) (name : String) : Option FieldSet :=
  match c.entries.lookup name with
  | some (.struct fields) => some fields
  | _ => none

/-- The declared names. -/
def declaredNames (c : Catalog) : List String :=
  (c.entries.filter fun entry => entry.2 ≠ .scalar).map Prod.fst

/-- Follows other names for at most `fuel` steps. -/
def resolveWithin (c : Catalog) : Nat → TypeExpr → Option TypeShape
  | fuel, .named name =>
    match c.entries.lookup name with
    | none => none
    | some .scalar => some .scalar
    | some (.struct fields) => some (.struct fields)
    | some (.alias underlying) =>
      match fuel with
      | 0 => none
      | fuel + 1 => c.resolveWithin fuel underlying
  | _, type => type.compositeShape?

/-- The shape of a type, or `none` if it is a name that is not known. In an accepted catalog a
chain of other names repeats none of them. -/
def resolve (c : Catalog) (type : TypeExpr) : Option TypeShape :=
  c.resolveWithin c.entries.length type

/-- Follows pointers, and other names for at most `fuel` steps. -/
def settleWithin (c : Catalog) (fuel : Nat) (type : TypeExpr) : SettledShape :=
  match type.stripPointers with
  | .named name =>
    match c.entries.lookup name with
    | none => .unknown name
    | some .scalar => .scalar
    | some (.struct fields) => .struct fields
    | some (.alias underlying) =>
      match fuel with
      | 0 => .unknown name
      | fuel + 1 => c.settleWithin fuel underlying
  | .slice element | .array _ element => .slice element
  | .map key value => .map key value
  | .pointer _ => .unknown type.render

/-- The shape of a type behind all pointers. In an accepted catalog a chain of other names,
with pointers between them, repeats none of them. -/
def settle (c : Catalog) (type : TypeExpr) : SettledShape :=
  c.settleWithin c.entries.length type

end Catalog

end Fieldwise
