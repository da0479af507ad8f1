import Fieldwise.Document.Basic

/-!
# Reading values from documents

A structure is written as a table of its members, or as the sequence of them in their order.
A member that may be left out has a default, members of other names are passed over, and no
member may be given twice.
-/

set_option autoImplicit false

namespace Fieldwise

namespace Document

/-- The text of a document. -/
def text? : Document → Option String
  | text s => some s
  | _ => none

/-- The truth value of a document. -/
def boolean? : Document → Option Bool
  | boolean b => some b
  | _ => none

/-- The items of a sequence, each read by `read`. -/
def listOf {α : Type} (read : Document → Option α) : Document → Option (List α)
  | sequence items => items.mapM read
  | _ => none

/-- Nothing for `null`, and otherwise what `read` gives. -/
def optional {α : Type} (read : Document → Option α) : Document → Option (Option α)
  | null => some none
  | d => (read d).map some

/-- No two entries with one of the names have the same one. -/
def givenOnce (names : List String) (entries : List (String × Document)) : Bool :=
  names.all fun name => (entries.filter fun entry => entry.1 = name).length ≤ 1

/-- The members of a structure with the given member names. In JSON a sequence must not be
longer than the structure; a moment of TOML is a structure without members. -/
def members? (format : DataFormat) (names : List String) :
    Document → Option (List (String × Document))
  | table entries => if givenOnce names entries then some entries else none
  | sequence items =>
    if format = .json && names.length < items.length then none else some (names.zip items)
  | moment _ => some []
  | _ => none

/-- A member that may be left out. -/
def memberD {α : Type} (members : List (String × Document)) (name : String)
    (read : Document → Option α) (default : α) : Option α :=
  match members.lookup name with
  | none => some default
  | some d => read d

/-- A member that must be given. -/
def member? {α : Type} (members : List (String × Document)) (name : String)
    (read : Document → Option α) : Option α :=
  (members.lookup name).bind read

end Document

end Fieldwise
