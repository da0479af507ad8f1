import Fieldwise.Proofs.CallTree.Noninterference
import Fieldwise.Proofs.Template.RangeOver

/-!
# The call tree of a range over a field

The distance from the root limits a tree and does not change it: what is accepted far from the root
has the same tree nearer to it. So the body of a range has below the elements of the range the tree
that it has on its own.

* `fieldPath_shallower`, `Operand.tree_shallower`, `Node.tree_shallower` and the theorems with them :
  the tree of each part nearer to the root.
* `CallTree.ofSource_rangeOver` : the tree of a range over a field.
-/

set_option autoImplicit false

namespace Fieldwise

/-! ## Nearer to the root -/

theorem checkDepth_shallower {depth depth' : Nat} {pos : Pos} (hle : depth' ≤ depth)
    (h : checkDepth depth pos = .ok ()) : checkDepth depth' pos = .ok () := by
  unfold checkDepth at h ⊢
  split at h
  · next hdepth => exact if_pos (Nat.le_trans hle hdepth)
  · cases h

theorem fieldPath_shallower {depth depth' : Nat} {pos : Pos} {names : List String}
    {path : List Step} (hle : depth' ≤ depth) (h : fieldPath depth pos names = .ok path) :
    fieldPath depth' pos names = .ok path := by
  unfold fieldPath at h ⊢
  split at h
  · cases h
  · next hdepth =>
    rw [checkDepth_shallower (Nat.add_le_add_right hle _) hdepth]
    exact h

theorem elementPath_shallower {depth depth' : Nat} {pos : Pos} {names : List String}
    {path : List Step} (hle : depth' ≤ depth) (h : elementPath depth pos names = .ok path) :
    elementPath depth' pos names = .ok path := by
  unfold elementPath at h ⊢
  split at h
  · cases h
  next steps hsteps =>
  split at h
  · cases h
  · next hdepth =>
    rw [fieldPath_shallower hle hsteps]
    dsimp only
    rw [checkDepth_shallower (by omega) hdepth]
    exact h

theorem Operand.path_shallower {depth depth' : Nat} (hle : depth' ≤ depth) :
    ∀ (operand : Operand) {path : List Step}, operand.path depth = .ok path →
      operand.path depth' = .ok path
  | .dot _, _, h => h
  | .field _ _, _, h => fieldPath_shallower hle h
  | .chain base fields, _, h => by
    rw [Operand.path] at h ⊢
    split at h
    · cases h
    next path hpath =>
    split at h
    · cases h
    next steps hsteps =>
    rw [path_shallower hle base hpath]
    dsimp only
    rw [fieldPath_shallower (Nat.add_le_add_right hle _) hsteps]
    exact h
  | .group ⟨pos, assigns, declared, commands⟩, _, h => by
    unfold Operand.path at h ⊢
    split at h
    · cases h
    · exact elementPath_shallower hle h
    · split at h
      · next inner _ => exact path_shallower hle inner h
      · cases h
  | .var _ _ _, _, h => by cases h
  | .identifier _ _, _, h => by cases h
  | .string _ _, _, h => by cases h
  | .number _ _, _, h => by cases h
  | .bool _ _, _, h => by cases h
  | .nil _, _, h => by cases h

theorem map_ofPath_shallower {r r' : Except TemplateError (List Step)} {t : CallTree}
    (hr : ∀ path, r = .ok path → r' = .ok path) (h : r.map CallTree.ofPath = .ok t) :
    r'.map CallTree.ofPath = .ok t := by
  obtain ⟨path, hpath, rfl⟩ := map_eq_ok_iff.mp h
  rw [hr path hpath]
  rfl

mutual

theorem Operand.tree_shallower {depth depth' : Nat} (hle : depth' ≤ depth) :
    ∀ (operand : Operand) {t : CallTree}, operand.tree depth = .ok t →
      operand.tree depth' = .ok t
  | .field _ _, _, h => map_ofPath_shallower (fun _ => fieldPath_shallower hle) h
  | .chain base fields, _, h =>
    map_ofPath_shallower (fun _ => Operand.path_shallower hle (.chain base fields)) h
  | .group pipe, _, h => pipelineTree_shallower hle pipe h
  | .dot _, _, h => h
  | .var _ _ _, _, h => h
  | .identifier _ _, _, h => h
  | .string _ _, _, h => h
  | .number _ _, _, h => h
  | .bool _ _, _, h => h
  | .nil _, _, h => h
termination_by structural operand => operand

theorem pipelineTree_shallower {depth depth' : Nat} (hle : depth' ≤ depth) :
    ∀ (pipe : Pipeline Operand) {t : CallTree}, pipelineTree depth pipe = .ok t →
      pipelineTree depth' pipe = .ok t
  | ⟨pos, assigns, declared, commands⟩, _, h => by
    rw [pipelineTree] at h ⊢
    split at h
    · cases h
    · exact map_ofPath_shallower (fun _ => elementPath_shallower hle) h
    · exact commandsTree_shallower hle commands h
termination_by structural pipe => pipe

theorem commandsTree_shallower {depth depth' : Nat} (hle : depth' ≤ depth) :
    ∀ (commands : List (Command Operand)) {t s : CallTree},
      commandsTree depth t commands = .ok s → commandsTree depth' t commands = .ok s
  | [], _, _, h => h
  | command :: rest, _, _, h => by
    rw [commandsTree] at h ⊢
    split at h
    · cases h
    next hcommand =>
    rw [commandTree_shallower hle command hcommand]
    exact commandsTree_shallower hle rest h
termination_by structural commands => commands

theorem commandTree_shallower {depth depth' : Nat} (hle : depth' ≤ depth) :
    ∀ (command : Command Operand) {t s : CallTree}, commandTree depth t command = .ok s →
      commandTree depth' t command = .ok s
  | ⟨_, args⟩, _, _, h => operandsTree_shallower hle args h
termination_by structural command => command

theorem operandsTree_shallower {depth depth' : Nat} (hle : depth' ≤ depth) :
    ∀ (operands : List Operand) {t s : CallTree}, operandsTree depth t operands = .ok s →
      operandsTree depth' t operands = .ok s
  | [], _, _, h => h
  | operand :: rest, _, _, h => by
    rw [operandsTree] at h ⊢
    split at h
    · cases h
    next hoperand =>
    rw [operand.tree_shallower hle hoperand]
    exact operandsTree_shallower hle rest h
termination_by structural operands => operands

end

mutual

theorem Node.tree_shallower : ∀ {depth depth' : Nat} (_ : depth' ≤ depth) (node : Node)
    {t : CallTree}, node.tree depth = .ok t → node.tree depth' = .ok t
  | _, _, _, .text _ _, _, h => h
  | _, _, hle, .action _ pipe, _, h => pipelineTree_shallower hle pipe h
  | _, _, hle, .branch .conditional _ pipe body alternative, _, h => by
    rw [Node.tree] at h ⊢
    split at h
    · cases h
    next hpipe =>
    split at h
    · cases h
    next hbody =>
    rw [pipelineTree_shallower hle pipe hpipe]
    dsimp only
    rw [listTree_shallower hle body hbody]
    exact alternativeTree_shallower hle alternative h
  | _, _, hle, .branch .range pos pipe body alternative, _, h => by
    rw [Node.tree] at h ⊢
    split at h
    · cases h
    next names hnames =>
    split at h
    · cases h
    next path hpath =>
    split at h
    · cases h
    next hbody =>
    rw [elementPath_shallower hle hpath]
    dsimp only
    rw [listTree_shallower (Nat.add_le_add_right hle _) body hbody]
    exact alternativeTree_shallower hle alternative h
  | _, _, _, .branch .focus _ _ _ _, _, h => by cases h
  | _, _, _, .template _ _ _, _, h => by cases h
  | _, _, _, .leave _, _, h => by cases h
  | _, _, _, .skip _, _, h => by cases h
termination_by structural _ _ _ node => node

theorem listTree_shallower : ∀ {depth depth' : Nat} (_ : depth' ≤ depth) (list : NodeList Node)
    {t s : CallTree}, listTree depth t list = .ok s → listTree depth' t list = .ok s
  | _, _, hle, ⟨_, nodes⟩, _, _, h => nodesTree_shallower hle nodes h
termination_by structural _ _ _ list => list

theorem alternativeTree_shallower : ∀ {depth depth' : Nat} (_ : depth' ≤ depth)
    (list : Option (NodeList Node)) {t s : CallTree},
    alternativeTree depth t list = .ok s → alternativeTree depth' t list = .ok s
  | _, _, _, none, _, _, h => h
  | _, _, hle, some list, _, _, h => listTree_shallower hle list h
termination_by structural _ _ _ list => list

/-- **Nearer to the root the nodes have the same tree.** -/
theorem nodesTree_shallower : ∀ {depth depth' : Nat} (_ : depth' ≤ depth) (nodes : List Node)
    {t s : CallTree}, nodesTree depth t nodes = .ok s → nodesTree depth' t nodes = .ok s
  | _, _, _, [], _, _, h => h
  | _, _, hle, node :: rest, _, _, h => by
    rw [nodesTree] at h ⊢
    split at h
    · cases h
    next hnode =>
    rw [node.tree_shallower hle hnode]
    exact nodesTree_shallower hle rest h
termination_by structural _ _ _ nodes => nodes

end

/-! ## The range -/

theorem CallTree.ofScan_eq_ok_iff {scan : Scan} {t : CallTree} : CallTree.ofScan scan = .ok t ↔
    ∃ template, Template.ofScan scan = .ok template ∧ CallTree.ofTemplate template = .ok t := by
  unfold CallTree.ofScan
  cases Template.ofScan scan with
  | error e => simp
  | ok template => simp

/-- The tree of a source is that of its core. -/
theorem CallTree.exists_ofScan_core {source : String} {t : CallTree}
    (h : CallTree.ofSource source = .ok t) :
    ∃ scan, Scan.ofSource source = .ok scan ∧ CallTree.ofScan scan.core = .ok t := by
  obtain ⟨template, htemplate, -⟩ := ofSource_eq_ok_iff_nodesTree.mp h
  obtain ⟨scan, hscan, -⟩ := ofSource_eq_ok_iff.mp htemplate
  rw [ofSource_eq_ofScan hscan] at h
  have hverdict := CallTree.ofScan_core scan
  refine ⟨scan, hscan, ?_⟩
  cases hcore : CallTree.ofScan scan.core with
  | error e => rw [h, hcore] at hverdict; cases hverdict
  | ok u =>
    rw [h, hcore] at hverdict
    cases hverdict
    rfl

/-- The tree of a range over a field, whose body has a tree of its own. -/
theorem CallTree.ofTemplate_range {opened pos : Pos} {names : List String} {body : Template}
    {t u : CallTree} (ht : CallTree.ofTemplate body = .ok t)
    (hu : CallTree.ofTemplate ⟨opened, [.branch .range opened
      ⟨pos, false, [], [⟨pos, [.field pos names]⟩]⟩ body none]⟩ = .ok u) :
    u = t.under (fieldSteps names ++ [.element]) := by
  rw [ofTemplate, listTree, nodesTree] at hu
  split at hu
  · cases hu
  next v hv =>
  obtain rfl : empty.merge v = u := Except.ok.inj hu
  have hfield : Pipeline.rangeField ⟨pos, false, [], [⟨pos, [.field pos names]⟩]⟩ = .ok names := rfl
  rw [Node.tree, hfield] at hv
  dsimp only at hv
  split at hv
  · cases hv
  next path hpath =>
  split at hv
  · cases hv
  next s hs =>
  -- the body has the same tree where it stands alone
  have hbody : listTree 0 .empty body = .ok s := listTree_shallower (Nat.zero_le _) body hs
  obtain rfl : s = t := Except.ok.inj (hbody.symm.trans ht)
  obtain rfl : s.under path = v := Except.ok.inj hv
  have hordered : s.Ordered := (listTree_adds body hs).ordered ordered_empty
  rw [empty_merge (ordered_under hordered path), elementPath_ok hpath]

/-- **A range scopes its body under the elements of its target.** Where a source has a call tree, and
a range over a field with that source as its body has one, too, the tree of the range is the path to
the elements of the field, with the tree of the body below and nothing else. -/
theorem CallTree.ofSource_rangeOver {names : List String} {body : String} {t u : CallTree}
    (hne : names ≠ []) (hnames : ∀ name ∈ names, IsFieldName name)
    (ht : CallTree.ofSource body = .ok t) (hu : CallTree.ofSource (rangeOver names body) = .ok u) :
    u = t.under (fieldSteps names ++ [.element]) := by
  obtain ⟨s, hs, ht⟩ := exists_ofScan_core ht
  obtain ⟨r, hr, hu⟩ := exists_ofScan_core hu
  have hwf := Scan.wellFormed_core (Scan.wellFormed_of_ofSource hr)
  rw [Scan.core_rangeOver hnames hs hr] at hu hwf
  obtain ⟨inner, hinner, ht⟩ := ofScan_eq_ok_iff.mp ht
  obtain ⟨outer, houter, hu⟩ := ofScan_eq_ok_iff.mp hu
  have hending : Scan.endAction.IsLone .endWord := ⟨⟨_, rfl, rfl⟩, rfl⟩
  have hpipe := isPipeline_fieldTokens (.opening .range) 1 [rootVariable] true hne
  obtain rfl := Template.ofScan_enclosed hwf rfl hpipe hending hinner houter
  exact ofTemplate_range ht hu

/-- The body trims the text around it, and has a variable, a range and a chain of its own. -/
theorem CallTree.ofSource_rangeOver_chained :
    let names := ["Order", "Items"]
    let body := " \x7b\x7b- $x := .Price -\x7d\x7d \x7b\x7bif $x\x7d\x7d\x7b\x7brange .Tags\x7d\x7d\x7b\x7b.\x7d\x7d" ++
      "\x7b\x7bend\x7d\x7d\x7b\x7belse if .Gift\x7d\x7d\x7b\x7b.Note.Text -\x7d\x7d\x7b\x7bend\x7d\x7d. "
    ∃ t, CallTree.ofSource body = .ok t ∧ (t.field? ["note", "text"]).isSome = true ∧
      CallTree.ofSource (rangeOver names body) =
        .ok (t.under [.field "order", .field "items", .element]) := by
  intro names body
  obtain ⟨t, ht, hany⟩ := exists_ok_of_any (x := CallTree.ofSource body) (p := fun t =>
    (t.field? ["note", "text"]).isSome && (CallTree.ofSource (rangeOver names body)).toBool)
    (by decide +kernel)
  obtain ⟨hnote, hrange⟩ := Bool.and_eq_true_iff.mp hany
  cases hu : CallTree.ofSource (rangeOver names body) with
  | error e => rw [hu] at hrange; cases hrange
  | ok u =>
    refine ⟨t, ht, hnote, congrArg Except.ok ?_⟩
    have hsteps : fieldSteps names ++ [.element] = [.field "order", .field "items", .element] := by
      decide +kernel
    rw [← hsteps]
    exact CallTree.ofSource_rangeOver (by decide) (by decide +kernel) ht hu

end Fieldwise
