import Fieldwise.Catalog.Basic

/-!
# The members of a type

`Catalog.members` finds the record behind a type and its members, or says what the type is
instead. It resolves the type and follows a pointer in turn, as long as there is one.
-/

set_option autoImplicit false

namespace Fieldwise

/-- Why a type has no members. -/
inductive NoMembers where
  | list
  | map
  | scalar
  | unknown (name : String)
  deriving DecidableEq, Repr

/-- The wording for a type without members. -/
def NoMembers.message (type : TypeExpr) : NoMembers → String
  | list => "'" ++ type.render ++ "' is a list, not a struct"
  | map => "'" ++ type.render ++ "' is a map, not a struct"
  | scalar => "'" ++ type.render ++ "' is a scalar, not a struct"
  | unknown name => "unknown type '" ++ name ++ "'"

namespace Catalog

/-- Follows pointers behind other names for at most `fuel` of these. -/
def membersWithin (c : Catalog) (fuel : Nat) (type : TypeExpr) : Except NoMembers FieldSet :=
  let target := type.stripPointers
  match c.resolve target with
  | some (.struct fields) => .ok fields
  | some (.slice _) => .error .list
  | some (.map _ _) => .error .map
  | some .scalar => .error .scalar
  | none => .error (.unknown target.render)
  | some (.pointer inner) =>
    match fuel with
    | 0 => .error (.unknown target.render)
    | fuel + 1 => c.membersWithin fuel inner

/-- The members that templates can use on a type. In an accepted catalog the names that lead
from pointer to pointer do not repeat. -/
def members (c : Catalog) (type : TypeExpr) : Except NoMembers FieldSet :=
  c.membersWithin c.entries.length type

end Catalog

end Fieldwise
