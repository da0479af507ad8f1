import Fieldwise.CallTree.Build
import Fieldwise.Proofs.Template.Layout

/-!
# Call trees of templates at other places

Where the parts of a template stand is told by refusals and by nothing else: a template without
places has the same tree, or is refused for the same cause.

* `forget` : a result, with a refusal kept without its place.
* `Operand.tree_bare`, `Node.tree_bare` and the theorems with them : the tree of each part.
* `nodesTree_of_bare` : nodes that differ in places only have the same tree.
-/

set_option autoImplicit false

namespace Fieldwise

/-- The refusal without its place. -/
def TemplateError.bare (e : TemplateError) : TemplateError :=
  { e with pos := .start }

/-- The result, with a refusal kept without its place. -/
def forget {α : Type} (r : Except TemplateError α) : Except TemplateError α :=
  r.mapError TemplateError.bare

section Forget

variable {α β : Type}

@[simp] theorem forget_ok (a : α) : forget (.ok a) = .ok a := rfl

@[simp] theorem forget_error (e : TemplateError) :
    forget (.error e : Except TemplateError α) = .error e.bare := rfl

theorem forget_map (f : α → β) (r : Except TemplateError α) :
    (forget r).map f = forget (r.map f) := by
  cases r <;> rfl

/-- A result that is the same up to places is the same where there is one. -/
theorem eq_ok_of_forget {r s : Except TemplateError α} {a : α} (h : forget s = forget r)
    (hr : r = .ok a) : s = .ok a := by
  subst hr
  cases s with
  | error e => cases h
  | ok b => exact h

end Forget

/-! ## Paths -/

variable {depth : Nat}

theorem checkDepth_bare (pos : Pos) : checkDepth depth .start = forget (checkDepth depth pos) := by
  unfold checkDepth
  split <;> rfl

theorem fieldPath_bare (pos : Pos) (names : List String) :
    fieldPath depth .start names = forget (fieldPath depth pos names) := by
  rw [fieldPath, fieldPath, checkDepth_bare pos]
  cases checkDepth (depth + names.length) pos <;> rfl

theorem elementPath_bare (pos : Pos) (names : List String) :
    elementPath depth .start names = forget (elementPath depth pos names) := by
  rw [elementPath, elementPath, fieldPath_bare pos]
  cases fieldPath depth pos names with
  | error e => rfl
  | ok path =>
    simp only [forget_ok]
    rw [checkDepth_bare pos]
    cases checkDepth (depth + names.length + 1) pos <;> rfl

theorem bareOperands_eq_map (operands : List Operand) :
    bareOperands operands = operands.map Operand.bare := by
  induction operands with
  | nil => rfl
  | cons operand rest ih => rw [bareOperands, ih, List.map_cons]

theorem bareCommands_eq_map (commands : List (Command Operand)) :
    bareCommands commands = commands.map bareCommand := by
  induction commands with
  | nil => rfl
  | cons command rest ih => rw [bareCommands, ih, List.map_cons]

theorem Operand.pos_bare : ∀ operand : Operand, operand.bare.pos = .start
  | .chain base _ => pos_bare base
  | .group ⟨_, _, _, _⟩ => rfl
  | .dot _ | .field _ _ | .var _ _ _ | .identifier _ _ | .string _ _ | .number _ _ | .bool _ _
  | .nil _ => rfl

/-- Whether a pipeline picks an element, and of which field, does not depend on places. -/
theorem indexedField?_bare (pipe : Pipeline Operand) :
    (barePipeline pipe).indexedField? =
      forget (pipe.indexedField?.map fun field => field.map fun (_, names) => (.start, names)) := by
  obtain ⟨pos, assigns, _ | ⟨v, vs⟩, _ | ⟨⟨commandPos, args⟩, _ | ⟨other, commands⟩⟩⟩ := pipe
  · rfl
  · rcases args with _ | ⟨head, _ | ⟨field, indices⟩⟩
    · rfl
    · cases head <;> rfl
    · cases head with
      | identifier _ name =>
        cases field with
        | field _ names =>
          simp only [barePipeline, bareCommands, bareCommand, bareOperands, Operand.bare,
            Pipeline.indexedField?, List.map_nil, bareOperands_eq_map]
          split
          · rcases indices with _ | ⟨index, _ | ⟨more, indices⟩⟩
            · rfl
            · cases index with
              | number _ text => cases h : isWholeNumber text <;> simp [Operand.bare, h, Except.map]
              | _ => rfl
            · simp [Except.map, TemplateError.bare]
          · rfl
        | _ => rfl
      | _ => rfl
  · rfl
  · rfl
  · rfl
  · rfl

theorem target_bare (arg : Operand) :
    Pipeline.rangeField.target arg.bare = forget (Pipeline.rangeField.target arg) := by
  cases arg with
  | chain base fields => simp [Operand.bare, Pipeline.rangeField.target, Operand.pos,
      Operand.pos_bare, Operand.kindName, TemplateError.bare]
  | group pipe =>
    obtain ⟨_, _, _, _⟩ := pipe
    rfl
  | _ => rfl

/-- The field that a range goes over does not depend on places. -/
theorem rangeField_bare (pipe : Pipeline Operand) :
    (barePipeline pipe).rangeField = forget pipe.rangeField := by
  obtain ⟨pos, assigns, declared, _ | ⟨⟨commandPos, args⟩, _ | ⟨other, commands⟩⟩⟩ := pipe
  · rfl
  · rcases args with _ | ⟨head, _ | ⟨arg, _ | ⟨more, rest⟩⟩⟩
    · rfl
    · exact target_bare head
    · cases head with
      | identifier _ name =>
        simp only [barePipeline, bareCommands, bareCommand, bareOperands, Operand.bare,
          Pipeline.rangeField]
        split
        · exact target_bare arg
        · rfl
      | _ => rfl
    · simp [barePipeline, bareCommands, bareCommand, bareOperands, Pipeline.rangeField,
        bareOperands_eq_map, TemplateError.bare]
  · simp [barePipeline, bareCommands, Pipeline.rangeField, bareCommands_eq_map, TemplateError.bare]

theorem Operand.path_bare : ∀ {depth : Nat} (operand : Operand),
    operand.bare.path depth = forget (operand.path depth)
  | _, .dot _ => rfl
  | _, .field pos names => fieldPath_bare pos names
  | depth, .chain base fields => by
    rw [Operand.bare, Operand.path, Operand.path, path_bare base]
    cases base.path depth with
    | error e => rfl
    | ok path =>
      simp only [forget_ok]
      rw [Operand.pos_bare, fieldPath_bare base.pos]
      cases fieldPath (depth + path.length) base.pos fields <;> rfl
  | depth, .group ⟨pos, assigns, declared, commands⟩ => by
    have hindexed := indexedField?_bare ⟨pos, assigns, declared, commands⟩
    rw [barePipeline] at hindexed
    rw [Operand.bare, barePipeline]
    unfold Operand.path
    rw [hindexed]
    cases Pipeline.indexedField? ⟨pos, assigns, declared, commands⟩ with
    | error e => rfl
    | ok field =>
      cases field with
      | some field => exact elementPath_bare field.1 field.2
      | none =>
        rcases declared with _ | ⟨v, vs⟩
        · rcases commands with _ | ⟨⟨commandPos, args⟩, _ | ⟨command, more⟩⟩
          · rfl
          · rcases args with _ | ⟨inner, _ | ⟨arg, rest⟩⟩
            · rfl
            · exact path_bare inner
            · rfl
          · rcases args with _ | ⟨inner, _ | ⟨arg, rest⟩⟩ <;> rfl
        · rfl
  | _, .var _ _ _ => rfl
  | _, .identifier _ _ => rfl
  | _, .string _ _ => rfl
  | _, .number _ _ => rfl
  | _, .bool _ _ => rfl
  | _, .nil _ => rfl

/-! ## Trees -/

mutual

theorem Operand.tree_bare : ∀ operand : Operand,
    operand.bare.tree depth = forget (operand.tree depth)
  | .field pos names => by
    rw [Operand.bare, Operand.tree, Operand.tree, fieldPath_bare pos, forget_map]
  | .chain base fields => by
    have hpath : (Operand.chain base fields).bare.path depth = _ := Operand.path_bare _
    rw [Operand.bare] at hpath
    rw [Operand.bare, Operand.tree, Operand.tree, hpath, forget_map]
  | .group pipe => pipelineTree_bare pipe
  | .dot _ => rfl
  | .var _ _ _ => rfl
  | .identifier _ _ => rfl
  | .string _ _ => rfl
  | .number _ _ => rfl
  | .bool _ _ => rfl
  | .nil _ => rfl
termination_by structural operand => operand

theorem pipelineTree_bare : ∀ pipe : Pipeline Operand,
    pipelineTree depth (barePipeline pipe) = forget (pipelineTree depth pipe)
  | ⟨pos, assigns, declared, commands⟩ => by
    have hindexed := indexedField?_bare ⟨pos, assigns, declared, commands⟩
    rw [barePipeline] at hindexed
    rw [barePipeline, pipelineTree, pipelineTree, hindexed]
    cases Pipeline.indexedField? ⟨pos, assigns, declared, commands⟩ with
    | error e => rfl
    | ok field =>
      cases field with
      | some field => exact (congrArg _ (elementPath_bare field.1 field.2)).trans (forget_map ..)
      | none => exact commandsTree_bare .empty commands
termination_by structural pipe => pipe

theorem commandsTree_bare : ∀ (t : CallTree) (commands : List (Command Operand)),
    commandsTree depth t (bareCommands commands) = forget (commandsTree depth t commands)
  | _, [] => rfl
  | t, command :: rest => by
    rw [bareCommands, commandsTree, commandsTree, commandTree_bare t command]
    cases commandTree depth t command with
    | error e => rfl
    | ok s => exact commandsTree_bare s rest
termination_by structural _ commands => commands

theorem commandTree_bare : ∀ (t : CallTree) (command : Command Operand),
    commandTree depth t (bareCommand command) = forget (commandTree depth t command)
  | t, ⟨_, args⟩ => operandsTree_bare t args
termination_by structural _ command => command

theorem operandsTree_bare : ∀ (t : CallTree) (operands : List Operand),
    operandsTree depth t (bareOperands operands) = forget (operandsTree depth t operands)
  | _, [] => rfl
  | t, operand :: rest => by
    rw [bareOperands, operandsTree, operandsTree, operand.tree_bare]
    cases operand.tree depth with
    | error e => rfl
    | ok s => exact operandsTree_bare (t.merge s) rest
termination_by structural _ operands => operands

end

mutual

/-- **The tree of a node does not depend on places**, nor does the cause of a refusal. -/
theorem Node.tree_bare : ∀ {depth : Nat} (node : Node),
    node.bare.tree depth = forget (node.tree depth)
  | _, .text _ _ => rfl
  | _, .action _ pipe => pipelineTree_bare pipe
  | depth, .branch .conditional _ pipe body alternative => by
    rw [Node.bare, Node.tree, Node.tree, pipelineTree_bare pipe]
    cases pipelineTree depth pipe with
    | error e => rfl
    | ok t =>
      simp only [forget_ok]
      rw [listTree_bare t body]
      cases listTree depth t body with
      | error e => rfl
      | ok s => exact alternativeTree_bare s alternative
  | depth, .branch .range pos pipe body alternative => by
    rw [Node.bare, Node.tree, Node.tree, rangeField_bare pipe]
    cases pipe.rangeField with
    | error e => rfl
    | ok names =>
      simp only [forget_ok]
      rw [elementPath_bare pos names]
      cases elementPath depth pos names with
      | error e => rfl
      | ok path =>
        simp only [forget_ok]
        rw [listTree_bare .empty body]
        cases listTree (depth + path.length) .empty body with
        | error e => rfl
        | ok t => exact alternativeTree_bare (t.under path) alternative
  | _, .branch .focus _ _ _ _ => rfl
  | _, .template _ _ _ => rfl
  | _, .leave _ => rfl
  | _, .skip _ => rfl
termination_by structural _ node => node

theorem listTree_bare : ∀ {depth : Nat} (t : CallTree) (list : NodeList Node),
    listTree depth t (bareList list) = forget (listTree depth t list)
  | _, t, ⟨_, nodes⟩ => nodesTree_bare t nodes
termination_by structural _ _ list => list

theorem alternativeTree_bare : ∀ {depth : Nat} (t : CallTree)
    (alternative : Option (NodeList Node)),
    alternativeTree depth t (bareAlternative alternative) =
      forget (alternativeTree depth t alternative)
  | _, _, none => rfl
  | _, t, some list => listTree_bare t list
termination_by structural _ _ alternative => alternative

theorem nodesTree_bare : ∀ {depth : Nat} (t : CallTree) (nodes : List Node),
    nodesTree depth t (bareNodes nodes) = forget (nodesTree depth t nodes)
  | _, _, [] => rfl
  | depth, t, node :: rest => by
    rw [bareNodes, nodesTree, nodesTree, node.tree_bare]
    cases node.tree depth with
    | error e => rfl
    | ok s => exact nodesTree_bare (t.merge s) rest
termination_by structural _ _ nodes => nodes

end

/-- Nodes that differ in places only have the same tree. -/
theorem nodesTree_of_bare {t u : CallTree} {nodes nodes' : List Node}
    (h : bareNodes nodes' = bareNodes nodes) (hu : nodesTree depth t nodes = .ok u) :
    nodesTree depth t nodes' = .ok u := by
  refine eq_ok_of_forget ?_ hu
  rw [← nodesTree_bare, ← nodesTree_bare, h]

end Fieldwise
