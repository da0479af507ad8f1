import Fieldwise.Catalog.Declaration

/-!
# Which catalogs are accepted

A catalog is checked as a whole before it is used: no built-in name is declared, every
declaration has one of the two forms, every name that is mentioned is known, embedded fields
are declared records, and underlying types do not go in a circle. That embedded records do not
either is found out later, when the members of the records are put together.

The first fault found is reported. Declarations are taken in the order of their names, and
each kind of check goes through all of them before the next kind starts.
-/

set_option autoImplicit false

namespace Fieldwise

/-- Names that stand for scalars without being declared. -/
def builtinScalars : List String :=
  ["bool", "string", "byte", "rune", "error", "int", "int8", "int16", "int32", "int64", "uint",
    "uint8", "uint16", "uint32", "uint64", "uintptr", "float32", "float64", "complex64",
    "complex128", "time.Time", "time.Duration"]

/-- What is wrong with a catalog. -/
inductive CatalogFault where
  | redeclaredBuiltin (name : String)
  | underlyingWithMembers (name : String)
  | unnamedField (owner : String) (type : TypeExpr)
  | unknownType (name : String) (referencedBy : String)
  | embeddedNotStruct (field owner : String) (type : TypeExpr)
  | underlyingCycle (chain : List String) (next : String)
  | embeddingCycle (chain : List String) (next : String)
  deriving DecidableEq, Repr

/-- Names with arrows between them. -/
def arrows (names : List String) : String :=
  " -> ".intercalate names

/-- The full text of a fault. -/
def CatalogFault.message : CatalogFault → String
  | redeclaredBuiltin name => "invalid type catalog: '" ++ name ++ "' redeclares a built-in type"
  | underlyingWithMembers name =>
    "invalid type catalog: '" ++ name ++
      "' declares an underlying type together with fields or methods"
  | unnamedField owner type =>
    "invalid type catalog: '" ++ owner ++ "' has a field of type '" ++ type.render ++
      "' without a name"
  | unknownType name referencedBy =>
    "unknown type '" ++ name ++ "' referenced by " ++ referencedBy
  | embeddedNotStruct field owner type =>
    "invalid type catalog: embedded field '" ++ field ++ "' of '" ++ owner ++
      "' must be a declared struct type, got '" ++ type.render ++ "'"
  | underlyingCycle chain next =>
    "invalid type catalog: underlying type cycle: " ++ arrows chain ++ " -> " ++ next
  | embeddingCycle chain next =>
    "invalid type catalog: embedding cycle: " ++ arrows chain ++ " -> " ++ next

namespace CatalogFile

/-- Runs a check on each item until one fails. -/
def checkEach {α : Type} (check : α → Except CatalogFault Unit) :
    List α → Except CatalogFault Unit
  | [] => .ok ()
  | x :: xs =>
    match check x with
    | .error e => .error e
    | .ok () => checkEach check xs

/-! ## The form of a declaration -/

/-- Every field that is not embedded has a name. -/
def checkNamed (owner : String) (f : FieldDecl) : Except CatalogFault Unit :=
  if f.name = "" && !f.embedded then .error (.unnamedField owner f.type) else .ok ()

/-- The name is free and the declaration has one of the two forms. -/
def checkForm (entry : String × TypeDecl) : Except CatalogFault Unit :=
  let (name, decl) := entry
  if builtinScalars.contains name then .error (.redeclaredBuiltin name)
  else if decl.underlying.isSome && !(decl.fields.isEmpty && decl.methods.isEmpty) then
    .error (.underlyingWithMembers name)
  else checkEach (checkNamed name) decl.fields

/-! ## Names that are mentioned -/

/-- A built-in or declared name. -/
def isKnown (types : List (String × TypeDecl)) (name : String) : Bool :=
  builtinScalars.contains name || Keyed.contains name types

/-- Every name in a type expression is known. -/
def checkKnown (types : List (String × TypeDecl)) (referencedBy : String) (type : TypeExpr) :
    Except CatalogFault Unit :=
  checkEach
    (fun name =>
      if isKnown types name then .ok () else .error (.unknownType name referencedBy))
    type.names

/-- The name of a declared record. -/
def isDeclaredStruct (types : List (String × TypeDecl)) (name : String) : Bool :=
  ((types.lookup name).map TypeDecl.isStruct).getD false

/-- The type of a field is known, and that of an embedded one is a declared record. -/
def checkField (types : List (String × TypeDecl)) (owner : String) (f : FieldDecl) :
    Except CatalogFault Unit :=
  match checkKnown types (owner ++ "." ++ f.fieldName) f.type with
  | .error e => .error e
  | .ok () =>
    if f.embedded && !(f.type.targetName?.any (isDeclaredStruct types)) then
      .error (.embeddedNotStruct f.fieldName owner f.type)
    else .ok ()

/-- The types that a method takes and gives are known. -/
def checkMethod (types : List (String × TypeDecl)) (owner : String) (m : MethodDecl) :
    Except CatalogFault Unit :=
  checkEach (checkKnown types (owner ++ "." ++ m.name ++ "()")) (m.params ++ m.results)

/-- Every name that a declaration mentions is known. -/
def checkReferences (types : List (String × TypeDecl)) (entry : String × TypeDecl) :
    Except CatalogFault Unit :=
  let (name, decl) := entry
  match checkEach (checkKnown types name) decl.underlying.toList with
  | .error e => .error e
  | .ok () =>
    match checkEach (checkField types name) decl.fields with
    | .error e => .error e
    | .ok () => checkEach (checkMethod types name) decl.methods

/-! ## Circles of underlying types -/

/-- The name that a declared name is another name for, through pointers. -/
def underlyingName? (types : List (String × TypeDecl)) (name : String) : Option String :=
  ((types.lookup name).bind TypeDecl.underlying).bind TypeExpr.targetName?

/-- Follows underlying types from `current`; the names `seen` lead there, and none may come
again. A chain without a repeated name has at most `fuel` more names. -/
def followUnderlying (types : List (String × TypeDecl)) :
    Nat → List String → String → Except CatalogFault Unit
  | 0, _, _ => .ok ()
  | fuel + 1, seen, current =>
    match underlyingName? types current with
    | none => .ok ()
    | some next =>
      if seen.contains next then .error (.underlyingCycle seen next)
      else followUnderlying types fuel (seen ++ [next]) next

/-- The underlying types of a declared name do not go in a circle. -/
def checkUnderlying (types : List (String × TypeDecl)) (entry : String × TypeDecl) :
    Except CatalogFault Unit :=
  followUnderlying types (types.length + 1) [entry.1] entry.1

/-! ## All checks -/

/-- The first fault of a catalog that is found before its field sets are built. -/
def check (file : CatalogFile) : Except CatalogFault Unit :=
  match checkEach checkForm file.types with
  | .error e => .error e
  | .ok () =>
    match checkEach (checkReferences file.types) file.types with
    | .error e => .error e
    | .ok () => checkEach (checkUnderlying file.types) file.types

end CatalogFile

end Fieldwise
