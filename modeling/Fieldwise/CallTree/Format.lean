import Fieldwise.CallTree.Basic
import Fieldwise.Document.Basic

/-!
# Call trees as documents

A node is written as a table with the tree of its elements and the trees of its fields; what a
node lacks is left out.
-/

set_option autoImplicit false

namespace Fieldwise.CallTree

mutual

/-- The document of a tree. -/
def toDocument : CallTree → Document
  | node e fs => .table (elementEntry e ++ fieldsEntry fs)
termination_by structural t => t

/-- The entry for the elements. -/
def elementEntry : Option CallTree → List (String × Document)
  | none => []
  | some t => [("list", toDocument t)]
termination_by structural t => t

/-- The entry for the fields. -/
def fieldsEntry : Option (List (String × CallTree)) → List (String × Document)
  | none => []
  | some fs => [("fields", .table (fieldDocuments fs))]
termination_by structural fs => fs

/-- The documents of the fields. -/
def fieldDocuments : List (String × CallTree) → List (String × Document)
  | [] => []
  | entry :: rest => fieldDocument entry :: fieldDocuments rest
termination_by structural entries => entries

/-- The document of a field. -/
def fieldDocument : String × CallTree → String × Document
  | (key, t) => (key, toDocument t)
termination_by structural entry => entry

end

end Fieldwise.CallTree
