import Fieldwise.CallTree.Basic

/-!
# Outlines of call trees

An outline lists the fields of a call tree, one to a line, indented by their depth. Brackets
before a name say that the field is iterated; what stands below such a line describes the
elements. A field that is both iterated and drilled into has a line for each.
-/

set_option autoImplicit false

namespace Fieldwise

/-- A line of an outline and its depth. -/
structure OutlineLine where
  depth : Nat
  text : String
  deriving DecidableEq, Repr

/-- Spaces of indentation for each level. -/
def outlineIndent : Nat := 4

/-- The line as it is printed. -/
def OutlineLine.render (l : OutlineLine) : String :=
  String.ofList (List.replicate (l.depth * outlineIndent) ' ') ++ l.text ++ "\n"

namespace CallTree

mutual

/-- The lines of a tree: its elements first, then its fields. -/
def outlineLines (depth : Nat) : CallTree → List OutlineLine
  | node e fs => elementLines depth e ++ fieldsLines depth fs
termination_by structural t => t

/-- The lines of the elements under a line without a name. -/
def elementLines (depth : Nat) : Option CallTree → List OutlineLine
  | none => []
  | some t => ⟨depth, "- []:"⟩ :: outlineLines (depth + 1) t
termination_by structural t => t

/-- The lines of the fields. -/
def fieldsLines (depth : Nat) : Option (List (String × CallTree)) → List OutlineLine
  | none => []
  | some fs => entriesLines depth fs
termination_by structural fs => fs

/-- The lines of the fields in order. -/
def entriesLines (depth : Nat) : List (String × CallTree) → List OutlineLine
  | [] => []
  | entry :: rest => entryLines depth entry ++ entriesLines depth rest
termination_by structural entries => entries

/-- The lines of a field: as a list, as a record, or by its name alone. -/
def entryLines (depth : Nat) : String × CallTree → List OutlineLine
  | (name, t) => memberLines depth name t
termination_by structural entry => entry

/-- The lines of the field with the given name. -/
def memberLines (depth : Nat) (name : String) : CallTree → List OutlineLine
  | node none none => [⟨depth, "- " ++ name⟩]
  | node none (some fs) => ⟨depth, "- " ++ name ++ ":"⟩ :: entriesLines (depth + 1) fs
  | node (some e) none => listLines depth name e
  | node (some e) (some fs) =>
    listLines depth name e ++ ⟨depth, "- " ++ name ++ ":"⟩ :: entriesLines (depth + 1) fs
termination_by structural t => t

/-- The lines of an iterated field: the fields of its elements, then their elements. -/
def listLines (depth : Nat) (name : String) : CallTree → List OutlineLine
  | node e fs =>
    ⟨depth, "- []" ++ name ++ ":"⟩ :: fieldsLines (depth + 1) fs ++ elementLines (depth + 1) e
termination_by structural t => t

end

/-- The printed outline of a tree. -/
def outline (t : CallTree) : String :=
  String.join ((outlineLines 0 t).map OutlineLine.render)

end CallTree

end Fieldwise
