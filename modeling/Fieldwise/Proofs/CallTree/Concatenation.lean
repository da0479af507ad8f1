import Fieldwise.Proofs.CallTree.Inclusion
import Fieldwise.Proofs.CallTree.Layout
import Fieldwise.Proofs.CallTree.Template
import Fieldwise.Proofs.Template.Concatenation

/-!
# The call tree of a concatenation

A template can be put together from pieces that are templates themselves: the fields that it uses
are those of its pieces.

* `nodesTree_append`, `nodesTree_withoutText` : the tree of some nodes, by parts; text adds
  nothing.
* `nodesTree_merge` : a tree that is there from the start is united with what the nodes add.
* `CallTree.ofSource_append` : the tree of a concatenation is the union of the two trees.
-/

set_option autoImplicit false

namespace Fieldwise

open CallTree

variable {depth : Nat}

theorem nodesTree_append (t : CallTree) (nodes nodes' : List Node) :
    nodesTree depth t (nodes ++ nodes') =
      match nodesTree depth t nodes with
      | .error e => .error e
      | .ok s => nodesTree depth s nodes' := by
  induction nodes generalizing t with
  | nil => rfl
  | cons node rest ih =>
    rw [List.cons_append, nodesTree, nodesTree]
    cases node.tree depth with
    | error e => rfl
    | ok s => exact ih (t.merge s)

theorem nodesTree_cons_of_isText {node : Node} (h : node.isText = true) (t : CallTree)
    (rest : List Node) : nodesTree depth t (node :: rest) = nodesTree depth t rest := by
  cases node with
  | text pos s =>
    rw [nodesTree, Node.tree]
    exact congrArg (nodesTree depth · rest) (merge_empty t)
  | _ => cases h

/-- Text adds nothing to a tree. -/
theorem nodesTree_withoutText (t : CallTree) (nodes : List Node) :
    nodesTree depth t (withoutText nodes) = nodesTree depth t nodes := by
  induction nodes generalizing t with
  | nil => rfl
  | cons node rest ih =>
    by_cases htext : node.isText = true
    · rw [withoutText_cons_of_isText htext, ih, nodesTree_cons_of_isText htext]
    · have hcons : withoutText (node :: rest) = node :: withoutText rest :=
        List.filter_cons_of_pos (by simpa using htext)
      rw [hcons, nodesTree, nodesTree]
      cases node.tree depth with
      | error e => rfl
      | ok s => exact ih (t.merge s)

/-- A tree that is there from the start is united with what the nodes add. -/
theorem nodesTree_merge {t : CallTree} (ht : t.Ordered) {nodes : List Node} :
    ∀ {s u : CallTree}, s.Ordered → nodesTree depth s nodes = .ok u →
    nodesTree depth (t.merge s) nodes = .ok (t.merge u) := by
  induction nodes with
  | nil =>
    intro s u _ h
    cases h
    rfl
  | cons node rest ih =>
    intro s u hs h
    rw [nodesTree] at h ⊢
    split at h
    · cases h
    next v hv =>
    have hordered : v.Ordered := (node.tree_adds hv).ordered ordered_empty
    rw [merge_assoc ht hs hordered]
    exact ih (ordered_merge v s hs hordered) h

theorem ofSource_eq_ok_iff_nodesTree {source : String} {t : CallTree} :
    CallTree.ofSource source = .ok t ↔ ∃ template, Template.ofSource source = .ok template ∧
      nodesTree 0 .empty template.nodes = .ok t := by
  unfold CallTree.ofSource
  cases Template.ofSource source with
  | error e => simp
  | ok template =>
    obtain ⟨pos, nodes⟩ := template
    simp only [Except.ok.injEq, exists_eq_left']
    rfl

/-- **Templates compose by concatenation**: where two sources have call trees, their concatenation
has the union of the two, unless the first ends and the second begins with the brace that makes a
left delimiter between them. -/
theorem CallTree.ofSource_append {A B : String} {s t : CallTree}
    (hs : CallTree.ofSource A = .ok s) (ht : CallTree.ofSource B = .ok t)
    (hseam : ¬ (A.toList.getLast? = some '\x7b' ∧ B.toList.head? = some '\x7b')) :
    CallTree.ofSource (A ++ B) = .ok (s.merge t) := by
  obtain ⟨a, ha, hs⟩ := ofSource_eq_ok_iff_nodesTree.mp hs
  obtain ⟨b, hb, ht⟩ := ofSource_eq_ok_iff_nodesTree.mp ht
  obtain ⟨c, hc, hbare⟩ := exists_ofSource_append ha hb hseam
  have hordered : s.Ordered := (nodesTree_adds _ hs).ordered ordered_empty
  have hboth : nodesTree 0 .empty (withoutText a.nodes ++ withoutText b.nodes) =
      .ok (s.merge t) := by
    have hrest := nodesTree_merge hordered ordered_empty ht
    rw [merge_empty] at hrest
    rw [nodesTree_append, nodesTree_withoutText, hs]
    dsimp only
    rw [nodesTree_withoutText, hrest]
  rw [← bareNodes_append] at hbare
  refine ofSource_eq_ok_iff_nodesTree.mpr ⟨c, hc, ?_⟩
  rw [← nodesTree_withoutText]
  exact nodesTree_of_bare hbare hboth

/-- The first source declares a variable, holds a range and a comment, trims the text behind both
and ends with a lone brace; the second trims the text before its conditional and has a variable of
its own in one branch. Both use fields of the same one. -/
theorem CallTree.ofSource_append_trimmed :
    let A := "\x7b\x7b$x := .A.C\x7d\x7d\x7b\x7brange .Parts -\x7d\x7d \x7b\x7b.Name\x7d\x7d" ++
      "\x7b\x7bend\x7d\x7d\x7b\x7b/* names */ -\x7d\x7d \x7b"
    let B := " \x7b\x7b- if .A.B\x7d\x7d\x7b\x7b$y := .C\x7d\x7d\x7b\x7b$y\x7d\x7d" ++
      "\x7b\x7belse\x7d\x7d\x7b\x7b.Parts\x7d\x7d\x7b\x7bend\x7d\x7d"
    ∃ s t, CallTree.ofSource A = .ok s ∧ CallTree.ofSource B = .ok t ∧
      CallTree.ofSource (A ++ B) = .ok (s.merge t) ∧
      (((s.merge t).field? ["a", "b"]).isSome &&
        ((s.merge t).field? ["a", "c"]).isSome) = true := by
  intro A B
  obtain ⟨s, hs, hany⟩ := exists_ok_of_any (x := CallTree.ofSource A) (p := fun s =>
    (CallTree.ofSource B).toOption.any fun t =>
      ((s.merge t).field? ["a", "b"]).isSome && ((s.merge t).field? ["a", "c"]).isSome)
    (by decide +kernel)
  obtain ⟨t, ht, hfields⟩ := exists_ok_of_any hany
  exact ⟨s, t, hs, ht, CallTree.ofSource_append hs ht (by decide +kernel), hfields⟩

end Fieldwise
