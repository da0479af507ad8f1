import Fieldwise.Proofs.CallTree.Structure
import Fieldwise.Validation

/-!
# The walk, one node at a time

* `Catalog.mismatches_eq` : what the walk reports at a node, from the shape of the type and the
  two ways in which the node can be used.
* `Catalog.isValid_validate_iff` : a verdict is good exactly when the walk reports nothing.

The walk is recursive in the tree only: a pointer, and a name that stands for another type, are
followed inside `Catalog.settle`, before the tree is looked at.
-/

set_option autoImplicit false

namespace Fieldwise

/-- Mismatches that are added one after another stand in this order behind those that were there. -/
theorem Verdict.foldl_push (ms : List Mismatch) :
    ∀ v : Verdict, ms.foldl push v = ⟨v.mismatches ++ ms⟩ := by
  induction ms with
  | nil => exact fun v => by rw [List.foldl_nil, List.append_nil]
  | cons m rest ih =>
    intro v
    rw [List.foldl_cons, ih, push, List.append_assoc, List.singleton_append]

namespace Catalog

variable {c : Catalog} {suggest : Suggester} {path : List Step} {type : TypeExpr}

/-- A verdict holds what the walk finds, in order. -/
theorem validate_eq (t : CallTree) : c.validate suggest t type = ⟨c.mismatches suggest [] type t⟩ :=
  Verdict.foldl_push (c.mismatches suggest [] type t) .empty

@[simp] theorem mismatches_validate (t : CallTree) :
    (c.validate suggest t type).mismatches = c.mismatches suggest [] type t := by
  rw [validate_eq]

theorem isValid_validate_iff {t : CallTree} :
    (c.validate suggest t type).isValid = true ↔ c.mismatches suggest [] type t = [] := by
  rw [validate_eq, Verdict.isValid, List.isEmpty_iff]

theorem elementMismatches_eq (types : List TypeExpr) (element : Option CallTree) :
    c.elementMismatches suggest path types element =
      element.toList.flatMap fun e =>
        types.flatMap fun type => c.mismatches suggest (path ++ [.element]) type e := by
  cases element <;> simp [elementMismatches]

theorem entriesMismatches_eq (known : FieldSet) (entries : List (String × CallTree)) :
    c.entriesMismatches suggest path known entries =
      entries.flatMap (c.entryMismatches suggest path known) := by
  induction entries with
  | nil => rfl
  | cons entry rest ih => rw [entriesMismatches, ih, List.flatMap_cons]

theorem fieldsMismatches_eq (known : FieldSet) (fields : Option (List (String × CallTree))) :
    c.fieldsMismatches suggest path known fields =
      (fields.getD []).flatMap (c.entryMismatches suggest path known) := by
  cases fields
  · rfl
  · exact entriesMismatches_eq known _

/-- **One step of the walk**: the shape of the type decides what the node may be used as. -/
theorem mismatches_eq (t : CallTree) :
    c.mismatches suggest path type t =
      match c.settle type with
      | .unknown name => [(Disagreement.unknownType name).at path]
      | .scalar => if t.isLeaf then [] else [Disagreement.partOfScalar.at path]
      | .slice inner =>
        if t.members.isEmpty then
          t.element.toList.flatMap (c.mismatches suggest (path ++ [.element]) inner)
        else [Disagreement.listAsStruct.at path]
      | .map key value =>
        if t.members.isEmpty then
          t.element.toList.flatMap fun e =>
            c.mismatches suggest (path ++ [.element]) key e ++
              c.mismatches suggest (path ++ [.element]) value e
        else [Disagreement.listAsStruct.at path]
      | .struct known =>
        if t.element.isSome then [Disagreement.structAsList.at path]
        else t.members.flatMap (c.entryMismatches suggest path known) := by
  obtain ⟨e, fs⟩ := t
  rw [mismatches]
  cases c.settle type with
  | unknown name => rfl
  | scalar => rfl
  | slice inner => simp [elementMismatches_eq]
  | map key value => simp [elementMismatches_eq]
  | struct known => cases e <;> simp [fieldsMismatches_eq]

end Catalog

end Fieldwise
