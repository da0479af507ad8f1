import Fieldwise.Proofs.CallTree.Concatenation
import Fieldwise.Proofs.Template.Textless

/-!
# What the call tree of a source depends on

Text, comments, trim markers and places never influence a call tree: it is built from the tokens
inside the actions, and of these only the kind and the space before them count.

* `Node.tree_textless`, `nodesTree_textless` and the theorems with them : text adds nothing, at any
  depth.
* `CallTree.ofTemplate_core` : a template has the tree of its core.
* `CallTree.ofScan_core` : so has a source.
* `CallTree.ofSource_of_agrees` : two sources whose tokens agree, but for text, have the same call
  tree or are refused for causes of the same kind.
-/

set_option autoImplicit false

namespace Fieldwise

/-! ## Text at any depth -/

mutual

theorem Node.tree_textless : ∀ {depth : Nat} (node : Node),
    node.textless.tree depth = node.tree depth
  | _, .text _ _ => rfl
  | _, .action _ _ => rfl
  | depth, .branch .conditional _ pipe body alternative => by
    rw [Node.textless, Node.tree, Node.tree]
    cases pipelineTree depth pipe with
    | error e => rfl
    | ok t =>
      dsimp only
      rw [listTree_textless t body]
      cases listTree depth t body with
      | error e => rfl
      | ok s => exact alternativeTree_textless s alternative
  | depth, .branch .range pos pipe body alternative => by
    rw [Node.textless, Node.tree, Node.tree]
    cases pipe.rangeField with
    | error e => rfl
    | ok names =>
      dsimp only
      cases elementPath depth pos names with
      | error e => rfl
      | ok path =>
        dsimp only
        rw [listTree_textless .empty body]
        cases listTree (depth + path.length) .empty body with
        | error e => rfl
        | ok t => exact alternativeTree_textless (t.under path) alternative
  | _, .branch .focus _ _ _ _ => rfl
  | _, .template _ _ _ => rfl
  | _, .leave _ => rfl
  | _, .skip _ => rfl
termination_by structural _ node => node

theorem listTree_textless : ∀ {depth : Nat} (t : CallTree) (list : NodeList Node),
    listTree depth t (listTextless list) = listTree depth t list
  | _, t, ⟨_, nodes⟩ => nodesTree_textless t nodes
termination_by structural _ _ list => list

theorem alternativeTree_textless : ∀ {depth : Nat} (t : CallTree)
    (alternative : Option (NodeList Node)),
    alternativeTree depth t (alternativeTextless alternative) = alternativeTree depth t alternative
  | _, _, none => rfl
  | _, t, some list => listTree_textless t list
termination_by structural _ _ alternative => alternative

/-- **Text adds nothing to a tree**, wherever it stands. -/
theorem nodesTree_textless : ∀ {depth : Nat} (t : CallTree) (nodes : List Node),
    nodesTree depth t (nodesTextless nodes) = nodesTree depth t nodes
  | _, _, [] => rfl
  | depth, t, node :: rest => by
    rw [nodesTextless]
    split
    · next htext => rw [nodesTree_textless t rest, nodesTree_cons_of_isText htext]
    · rw [nodesTree, nodesTree, node.tree_textless]
      cases node.tree depth with
      | error e => rfl
      | ok s => exact nodesTree_textless (t.merge s) rest
termination_by structural _ _ nodes => nodes

end

/-! ## Templates and sources -/

theorem verdict_forget {α : Type} (r : Except TemplateError α) :
    verdict (forget r) = verdict r := by
  cases r <;> rfl

/-- A template has the tree of its core, or is refused with the same verdict. -/
theorem CallTree.ofTemplate_core (template : Template) :
    verdict (CallTree.ofTemplate template.core) = verdict (CallTree.ofTemplate template) := by
  obtain ⟨pos, nodes⟩ := template
  have hnodes : CallTree.ofTemplate (Template.core ⟨pos, nodes⟩) =
      forget (nodesTree 0 .empty nodes) := by
    rw [← nodesTree_textless, ← nodesTree_bare, bareNodes_nodesTextless]
    rfl
  rw [hnodes, verdict_forget]
  rfl

/-- Reads the template of a source and builds its call tree. -/
def CallTree.ofScan (scan : Scan) : Except TemplateError CallTree :=
  match Template.ofScan scan with
  | .error e => .error e
  | .ok template => CallTree.ofTemplate template

theorem CallTree.ofSource_eq_ofScan {source : String} {scan : Scan}
    (h : Scan.ofSource source = .ok scan) : CallTree.ofSource source = CallTree.ofScan scan := by
  rw [CallTree.ofSource, Template.ofSource, h]
  rfl

/-- **A call tree is built from the core of its source.** -/
theorem CallTree.ofScan_core (scan : Scan) :
    verdict (CallTree.ofScan scan.core) = verdict (CallTree.ofScan scan) := by
  rw [CallTree.ofScan, CallTree.ofScan]
  rcases verdict_cases (Template.ofScan_core scan) with
    ⟨d, e, hd, he, hkind⟩ | ⟨template, hd, he⟩
  · rw [hd, he]
    exact verdict_error hkind
  · rw [hd, he]
    exact CallTree.ofTemplate_core template

/-- **Text, comments, trim markers and places never influence a call tree.** Two sources whose
tokens agree, but for text, both have the same tree, or both are refused for causes of the same
kind. -/
theorem CallTree.ofSource_of_agrees {A B : String} {a b : Scan} (ha : Scan.ofSource A = .ok a)
    (hb : Scan.ofSource B = .ok b)
    (h : List.Forall₂ Token.Agrees a.tokensWithoutText b.tokensWithoutText) :
    (∃ t, CallTree.ofSource A = .ok t ∧ CallTree.ofSource B = .ok t) ∨
      ∃ d e, CallTree.ofSource A = .error d ∧ CallTree.ofSource B = .error e ∧
        d.fault.isUnsupported = e.fault.isUnsupported := by
  have hcore : a.core = b.core :=
    Scan.core_eq_of_tokens (Scan.wellFormed_of_ofSource ha) (Scan.wellFormed_of_ofSource hb) h
  have hverdict : verdict (CallTree.ofScan a) = verdict (CallTree.ofScan b) := by
    rw [← CallTree.ofScan_core, hcore, CallTree.ofScan_core]
  rw [CallTree.ofSource_eq_ofScan ha, CallTree.ofSource_eq_ofScan hb]
  cases hleft : CallTree.ofScan a with
  | error d =>
    cases hright : CallTree.ofScan b with
    | error e =>
      rw [hleft, hright] at hverdict
      exact .inr ⟨d, e, rfl, rfl, Except.error.inj hverdict⟩
    | ok u =>
      rw [hleft, hright] at hverdict
      cases hverdict
  | ok t =>
    cases hright : CallTree.ofScan b with
    | error e =>
      rw [hleft, hright] at hverdict
      cases hverdict
    | ok u =>
      rw [hleft, hright] at hverdict
      cases hverdict
      exact .inl ⟨t, rfl, rfl⟩

/-- The second source has a comment before its range, trim markers instead of text in it, and
more space in the actions than the first. -/
theorem CallTree.ofSource_of_agrees_trimmed :
    let A := "All: \x7b\x7b range $i, $x := .Items \x7d\x7d\x7b\x7b .Name \x7d\x7d, " ++
      "\x7b\x7b else \x7d\x7dnone\x7b\x7b end \x7d\x7d"
    let B := "\x7b\x7b/* all */ -\x7d\x7d \x7b\x7b- range  $i,  $x := .Items -\x7d\x7d " ++
      "\x7b\x7b- .Name\x7d\x7d\x7b\x7b else\x7d\x7d \x7b\x7b- end -\x7d\x7d "
    ∃ a b, Scan.ofSource A = .ok a ∧ Scan.ofSource B = .ok b ∧
      List.Forall₂ Token.Agrees a.tokensWithoutText b.tokensWithoutText ∧
      ∃ t, CallTree.ofSource A = .ok t ∧ CallTree.ofSource B = .ok t ∧
        (t.field? ["items"]).isSome = true := by
  intro A B
  obtain ⟨a, ha, hany⟩ := exists_ok_of_any (x := Scan.ofSource A) (p := fun a =>
    (Scan.ofSource B).toOption.any fun b =>
      decide (List.Forall₂ Token.Agrees a.tokensWithoutText b.tokensWithoutText))
    (by decide +kernel)
  obtain ⟨b, hb, hagree⟩ := exists_ok_of_any hany
  obtain ⟨s, hs, hfield⟩ := exists_ok_of_any (x := CallTree.ofSource A)
    (p := fun t => (t.field? ["items"]).isSome) (by decide +kernel)
  rcases CallTree.ofSource_of_agrees ha hb (of_decide_eq_true hagree) with
    ⟨t, hleft, hright⟩ | ⟨d, e, hleft, -⟩
  · cases hs.symm.trans hleft
    exact ⟨a, b, ha, hb, of_decide_eq_true hagree, s, hleft, hright, hfield⟩
  · cases hs.symm.trans hleft

end Fieldwise
