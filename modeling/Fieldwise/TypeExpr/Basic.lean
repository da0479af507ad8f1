/-!
# Type expressions

The types of data as they are written in catalogs: named types, pointers, slices, arrays and
maps.
-/

set_option autoImplicit false

namespace Fieldwise

/-- A type expression. -/
inductive TypeExpr where
  | named (name : String)
  | pointer (target : TypeExpr)
  | slice (element : TypeExpr)
  | array (length : Nat) (element : TypeExpr)
  | map (key value : TypeExpr)
  deriving DecidableEq, Repr, Inhabited

namespace TypeExpr

/-- The written form, without space. -/
def render : TypeExpr → String
  | named name => name
  | pointer target => "*" ++ target.render
  | slice element => "[]" ++ element.render
  | array length element => "[" ++ toString length ++ "]" ++ element.render
  | map key value => "map[" ++ key.render ++ "]" ++ value.render

/-- The name of a named type. -/
def name? : TypeExpr → Option String
  | named name => some name
  | _ => none

/-- The type behind all leading pointers. -/
def stripPointers : TypeExpr → TypeExpr
  | pointer target => target.stripPointers
  | t => t

/-- Every name in the expression, from left to right. -/
def names : TypeExpr → List String
  | named name => [name]
  | pointer target => target.names
  | slice element | array _ element => element.names
  | map key value => key.names ++ value.names

/-- The name of the type behind all leading pointers, if it is a named one. -/
def targetName? (t : TypeExpr) : Option String :=
  t.stripPointers.name?

end TypeExpr

/-- An expression that is no type, and what is wrong with it. -/
inductive TypeExprFault where
  | missingType
  | unclosedKey
  | unclosedLength
  | badLength
  | badName
  deriving DecidableEq, Repr

/-- The wording of a fault. -/
def TypeExprFault.message : TypeExprFault → String
  | missingType => "missing type"
  | unclosedKey => "unclosed map key"
  | unclosedLength => "unclosed array length"
  | badLength => "array length is not a number"
  | badName => "not a type name"

end Fieldwise
