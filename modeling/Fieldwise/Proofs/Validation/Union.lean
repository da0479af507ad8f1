import Fieldwise.Proofs.Validation.Walk

/-!
# Checking a union

* `Catalog.mismatches_merge_eq_nil` : the walk reports nothing on a union exactly when it reports
  nothing on either of the two trees.
* `Catalog.isValid_validate_merge` : so a union is valid exactly when both trees are.

This holds of every catalog and of every two trees, also where they use a place in different
ways: a type forbids at each place the one use, the other, or both, and a union has a use
exactly when one of the trees has it.
-/

set_option autoImplicit false

namespace Fieldwise

namespace CallTree

theorem isLeaf_merge (s t : CallTree) :
    (s.merge t).isLeaf = true ↔ s.isLeaf = true ∧ t.isLeaf = true := by
  simp only [isLeaf_iff, element_merge, mergeElement_eq_none, members_merge_eq_nil]
  exact and_and_and_comm

/-- What holds of the elements of a union, when it passes from two trees to their union and
back. -/
theorem forall_element_merge {P : CallTree → Prop} (s t : CallTree)
    (h : ∀ b, t.element = some b → ∀ a, P (a.merge b) ↔ P a ∧ P b) :
    (∀ e, (s.merge t).element = some e → P e) ↔
      (∀ a, s.element = some a → P a) ∧ ∀ b, t.element = some b → P b := by
  rw [element_merge]
  cases hs : s.element <;> cases ht : t.element
  · simp [mergeElement]
  · simp [mergeElement]
  · simp [mergeElement]
  · simpa [mergeElement] using h _ ht _

end CallTree

namespace Catalog

variable (c : Catalog) (suggest : Suggester)

/-- The walk reports nothing at a node: the condition that the shape of the type puts on each
of the two ways of use. -/
theorem mismatches_eq_nil_iff (path : List Step) (type : TypeExpr) (t : CallTree) :
    c.mismatches suggest path type t = [] ↔
      match c.settle type with
      | .unknown _ => False
      | .scalar => t.isLeaf = true
      | .slice inner =>
        t.members = [] ∧
          ∀ e, t.element = some e → c.mismatches suggest (path ++ [.element]) inner e = []
      | .map key value =>
        t.members = [] ∧
          ∀ e, t.element = some e → c.mismatches suggest (path ++ [.element]) key e = [] ∧
            c.mismatches suggest (path ++ [.element]) value e = []
      | .struct known =>
        t.element = none ∧
          ∀ entry ∈ t.members, c.entryMismatches suggest path known entry = [] := by
  rw [mismatches_eq]
  cases c.settle type with
  | unknown name => simp
  | scalar => simp
  | slice inner => cases t.members <;> simp
  | map key value => cases t.members <;> simp
  | struct known => cases t.element <;> simp

/-- A field of the union of two trees passes the walk when it does in both of them. -/
theorem entryMismatches_merge_eq_nil {path : List Step} {known : FieldSet} {key : String}
    {s t : CallTree}
    (h : ∀ path type, c.mismatches suggest path type (s.merge t) = [] ↔
      c.mismatches suggest path type s = [] ∧ c.mismatches suggest path type t = []) :
    c.entryMismatches suggest path known (key, s.merge t) = [] ↔
      c.entryMismatches suggest path known (key, s) = [] ∧
        c.entryMismatches suggest path known (key, t) = [] := by
  simp only [entryMismatches]
  split
  · exact h _ _
  · simp

/-- **The walk finds nothing in a union exactly when it finds nothing in either tree.** -/
theorem mismatches_merge_eq_nil (t : CallTree) :
    ∀ (s : CallTree) (path : List Step) (type : TypeExpr),
      c.mismatches suggest path type (s.merge t) = [] ↔
        c.mismatches suggest path type s = [] ∧ c.mismatches suggest path type t = [] := by
  induction t with
  | step t ihElement ihMembers =>
    intro s path type
    simp only [mismatches_eq_nil_iff c suggest path type]
    cases c.settle type with
    | unknown name => simp
    | scalar => exact CallTree.isLeaf_merge s t
    | slice inner =>
      simp only [CallTree.members_merge_eq_nil]
      rw [CallTree.forall_element_merge s t fun b hb a => ihElement b hb a _ _]
      exact and_and_and_comm
    | map key value =>
      simp only [CallTree.members_merge_eq_nil]
      rw [CallTree.forall_element_merge s t fun b hb a => by
        rw [ihElement b hb, ihElement b hb]
        exact and_and_and_comm]
      exact and_and_and_comm
    | struct known =>
      simp only [CallTree.element_merge, CallTree.mergeElement_eq_none, CallTree.members_merge]
      rw [CallTree.forall_mem_mergeEntries _ _ fun entry hentry a =>
        entryMismatches_merge_eq_nil c suggest (ihMembers entry hentry a)]
      exact and_and_and_comm

/-- **A union is valid exactly when both trees are.** -/
theorem isValid_validate_merge (s t : CallTree) (type : TypeExpr) :
    (c.validate suggest (s.merge t) type).isValid = true ↔
      (c.validate suggest s type).isValid = true ∧
        (c.validate suggest t type).isValid = true := by
  simp only [isValid_validate_iff]
  exact mismatches_merge_eq_nil c suggest t s [] type

end Catalog

end Fieldwise
