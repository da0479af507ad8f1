import Fieldwise.Catalog.Declaration
import Fieldwise.Text.Lowercase

/-!
# Members that templates can use

A field set holds the members of a record under their names in lower case. Of several members
whose names differ in letter case only, it keeps the first that is added.
-/

set_option autoImplicit false

namespace Fieldwise

/-- Types of members under names in lower case, in order. -/
structure FieldSet where
  entries : List (String × TypeExpr)
  deriving DecidableEq, Repr

namespace FieldSet

/-- No members. -/
def empty : FieldSet := ⟨[]⟩

/-- The type of the member with the given name, in any letter case. -/
def get? (s : FieldSet) (name : String) : Option TypeExpr :=
  s.entries.lookup (Text.lowercase name)

/-- A member has the given name, in any letter case. -/
def contains (s : FieldSet) (name : String) : Bool :=
  (s.get? name).isSome

/-- Adds a member, unless one of the same name is there. -/
def insert (s : FieldSet) (name : String) (type : TypeExpr) : FieldSet :=
  ⟨Keyed.putNew (Text.lowercase name) type s.entries⟩

/-- The names in lower case. -/
def names (s : FieldSet) : List String :=
  s.entries.map Prod.fst

/-- Adds members one after another. -/
def insertAll (s : FieldSet) (members : List (String × TypeExpr)) : FieldSet :=
  members.foldl (fun s member => s.insert member.1 member.2) s

end FieldSet

end Fieldwise
