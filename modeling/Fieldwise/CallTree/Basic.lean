import Fieldwise.Keyed
import Fieldwise.Text.Lowercase

/-!
# Call trees

A call tree records which fields a template reaches from its data, without regard to any
type. A node may be iterated, and then has a tree for its elements; it may be drilled into,
and then has a tree for each field. It may also be both, and only a type tells whether that is
a conflict.

Field names are kept in lower case and in order. `CallTree.touch` adds one path and
`CallTree.merge` unites two trees.
-/

set_option autoImplicit false

namespace Fieldwise

/-- A tree of the paths that a template uses. -/
inductive CallTree where
  | node (element : Option CallTree) (fields : Option (List (String × CallTree)))
  deriving Repr

/-- One step down a call tree. -/
inductive Step where
  | element
  | field (key : String)
  deriving DecidableEq, Repr

/-- The step to the field with the given name. -/
def Step.named (name : String) : Step :=
  .field (Text.lowercase name)

/-- How deep a call tree may be. -/
def maxTreeDepth : Nat := 256

namespace CallTree

/-- The tree that uses its root only. -/
def empty : CallTree := .node none none

instance : Inhabited CallTree := ⟨empty⟩

/-- The tree of the elements, if the root is iterated. -/
def element : CallTree → Option CallTree
  | node element _ => element

/-- The trees of the fields, if the root is drilled into. -/
def fields : CallTree → Option (List (String × CallTree))
  | node _ fields => fields

/-- The trees of the fields, none if the root is not drilled into. -/
def members (t : CallTree) : List (String × CallTree) :=
  t.fields.getD []

@[simp] theorem element_node (e : Option CallTree) (fs : Option (List (String × CallTree))) :
    (node e fs).element = e := rfl

@[simp] theorem fields_node (e : Option CallTree) (fs : Option (List (String × CallTree))) :
    (node e fs).fields = fs := rfl

@[simp] theorem element_empty : empty.element = none := rfl

@[simp] theorem fields_empty : empty.fields = none := rfl

/-! ## How a node is used -/

/-- The ways in which a node is used. -/
inductive Facets where
  | leaf
  | list (element : CallTree)
  | struct (fields : List (String × CallTree))
  | conflict (element : CallTree) (fields : List (String × CallTree))

/-- How the root is used; a record without fields counts as no record. -/
def facets : CallTree → Facets
  | node none none => .leaf
  | node none (some []) => .leaf
  | node none (some (f :: fs)) => .struct (f :: fs)
  | node (some e) none => .list e
  | node (some e) (some []) => .list e
  | node (some e) (some (f :: fs)) => .conflict e (f :: fs)

/-- The root is neither iterated nor drilled into. -/
def isLeaf (t : CallTree) : Bool :=
  match t.facets with
  | .leaf => true
  | _ => false

mutual

/-- No node is both iterated and drilled into. -/
def isConsistent : CallTree → Bool
  | node none none => true
  | node none (some fs) => allConsistent fs
  | node (some e) none => isConsistent e
  | node (some e) (some fs) => fs.isEmpty && isConsistent e
termination_by structural t => t

/-- All the trees are consistent. -/
def allConsistent : List (String × CallTree) → Bool
  | [] => true
  | entry :: rest => entryConsistent entry && allConsistent rest
termination_by structural entries => entries

/-- The tree of a field is consistent. -/
def entryConsistent : String × CallTree → Bool
  | (_, t) => isConsistent t
termination_by structural entry => entry

end

/-! ## Growing a tree -/

/-- The tree with the nodes along a path added where they are missing. -/
def touch (t : CallTree) : List Step → CallTree
  | [] => t
  | .element :: path => node (some ((t.element.getD empty).touch path)) t.fields
  | .field key :: path =>
    node t.element
      (some (Keyed.update key (fun child => (child.getD empty).touch path) t.members))

/-- The tree of a single path. -/
def ofPath (path : List Step) : CallTree :=
  empty.touch path

/-- The tree that has `t` at the end of a path and nothing beside the path. -/
def under (t : CallTree) : List Step → CallTree
  | [] => t
  | .element :: path => node (some (t.under path)) none
  | .field key :: path => node none (some [(key, t.under path)])

mutual

/-- The union of two trees. What one of them uses in two ways, or both use in different ways,
is kept side by side. -/
def merge (s : CallTree) : CallTree → CallTree
  | node e fs => node (mergeElement s.element e) (mergeFields s.fields fs)
termination_by structural t => t

/-- The union of the trees of elements. -/
def mergeElement (s : Option CallTree) : Option CallTree → Option CallTree
  | none => s
  | some t =>
    match s with
    | none => some t
    | some e => some (e.merge t)
termination_by structural t => t

/-- The union of the fields. -/
def mergeFields (s : Option (List (String × CallTree))) :
    Option (List (String × CallTree)) → Option (List (String × CallTree))
  | none => s
  | some fs => some (mergeEntries (s.getD []) fs)
termination_by structural fs => fs

/-- Fields united one by one with those that are there. -/
def mergeEntries (s : List (String × CallTree)) :
    List (String × CallTree) → List (String × CallTree)
  | [] => s
  | entry :: rest => mergeEntries (mergeEntry s entry) rest
termination_by structural entries => entries

/-- One field united with those that are there. -/
def mergeEntry (s : List (String × CallTree)) : String × CallTree → List (String × CallTree)
  | (key, t) =>
    Keyed.update key
      (fun child =>
        match child with
        | none => t
        | some c => c.merge t)
      s
termination_by structural entry => entry

end

/-! ## Reading a tree -/

/-- The tree at the end of a path, if the tree has all nodes of the path. -/
def get? (t : CallTree) : List Step → Option CallTree
  | [] => some t
  | .element :: path =>
    match t.element with
    | none => none
    | some e => e.get? path
  | .field key :: path =>
    match t.members.lookup key with
    | none => none
    | some child => child.get? path

/-- The tree at a path of field names, in any letter case. -/
def field? (t : CallTree) (names : List String) : Option CallTree :=
  t.get? (names.map Step.named)

/-! ## Order and equality -/

mutual

/-- Everywhere in the tree the fields are in order, each once. -/
def Ordered : CallTree → Prop
  | node e fs => OrderedElement e ∧ OrderedFields fs
termination_by structural t => t

/-- The tree of the elements is ordered. -/
def OrderedElement : Option CallTree → Prop
  | none => True
  | some t => Ordered t
termination_by structural t => t

/-- The fields are in order and their trees are ordered. -/
def OrderedFields : Option (List (String × CallTree)) → Prop
  | none => True
  | some fs => Keyed.Ordered fs ∧ OrderedEntries fs
termination_by structural fs => fs

/-- The trees of the fields are ordered. -/
def OrderedEntries : List (String × CallTree) → Prop
  | [] => True
  | entry :: rest => OrderedEntry entry ∧ OrderedEntries rest
termination_by structural entries => entries

/-- The tree of the field is ordered. -/
def OrderedEntry : String × CallTree → Prop
  | (_, t) => Ordered t
termination_by structural entry => entry

end

mutual

/-- The two trees are the same. -/
def beq : CallTree → CallTree → Bool
  | node e fs, t => beqElement e t.element && beqFields fs t.fields
termination_by structural t => t

/-- The trees of elements are the same. -/
def beqElement : Option CallTree → Option CallTree → Bool
  | none, t => t.isNone
  | some _, none => false
  | some s, some t => s.beq t
termination_by structural t => t

/-- The fields are the same. -/
def beqFields :
    Option (List (String × CallTree)) → Option (List (String × CallTree)) → Bool
  | none, fs => fs.isNone
  | some _, none => false
  | some es, some fs => beqEntries es fs
termination_by structural es => es

/-- The entries are the same. -/
def beqEntries : List (String × CallTree) → List (String × CallTree) → Bool
  | [], fs => fs.isEmpty
  | _ :: _, [] => false
  | e :: es, f :: fs => beqEntry e f && beqEntries es fs
termination_by structural es => es

/-- The two fields are the same. -/
def beqEntry : String × CallTree → String × CallTree → Bool
  | (k, s), (k', t) => k == k' && s.beq t
termination_by structural e => e

end

instance : BEq CallTree := ⟨beq⟩

end CallTree

end Fieldwise
