import Fieldwise.Check.Error
import Fieldwise.Proofs.CallTree.Template
import Fieldwise.Proofs.Template.Placement

/-!
# Refusals point into their source

Building a call tree refuses a part of a template only with a place of that part. Together with what
holds of reading, the place that any refusal points to is a boundary of the source.

* `Operand.path_points`, `pipelineTree_points`, `Node.tree_points` : building makes up no places.
* `CallTree.ofSource_points` : a source without a call tree is refused at one of its boundaries.
* `CallTree.ofSource_error_pos` : the same with lines and columns counted in the source.
-/

set_option autoImplicit false

namespace Fieldwise

variable {P : Pos → Prop} {pos : Pos}

/-! ## Paths -/

theorem checkDepth_points (hpos : P pos) (depth : Nat) :
    Points P (fun _ => True) (checkDepth depth pos) := by
  rw [checkDepth]
  split
  · trivial
  · exact hpos

theorem fieldPath_points (hpos : P pos) (depth : Nat) (names : List String) :
    Points P (fun _ => True) (fieldPath depth pos names) := by
  rw [fieldPath]
  have hdepth := checkDepth_points hpos (depth + names.length)
  split
  · next herror => exact hdepth.of_error herror
  · trivial

theorem elementPath_points (hpos : P pos) (depth : Nat) (names : List String) :
    Points P (fun _ => True) (elementPath depth pos names) := by
  rw [elementPath]
  have hfield := fieldPath_points hpos depth names
  split
  · next herror => exact hfield.of_error herror
  have hdepth := checkDepth_points hpos (depth + names.length + 1)
  split
  · next herror => exact hdepth.of_error herror
  · trivial

namespace Pipeline

variable {pipe : Pipeline Operand}

theorem indexedField?_points (h : PipelinePlaced P pipe) :
    Points P (fun field => ∀ f ∈ field, P f.1) pipe.indexedField? := by
  obtain ⟨pos, assigns, declared, commands⟩ := pipe
  unfold indexedField?
  dsimp only
  split
  · next command =>
    obtain ⟨commandPos, args⟩ := command
    obtain ⟨-, -, ⟨-, hargs⟩, -⟩ := h
    dsimp only
    split
    · obtain ⟨hcall, hfield, -⟩ := hargs
      split
      · split
        · split
          · exact fun f hf => by cases hf; exact hfield
          · exact nofun
        · exact nofun
        · exact hcall
      · exact nofun
    · exact nofun
  · exact nofun

theorem rangeField_points (h : PipelinePlaced P pipe) :
    Points P (fun _ => True) pipe.rangeField := by
  have htarget : ∀ {arg : Operand}, arg.Placed P →
      Points P (fun _ => True) (rangeField.target arg) := by
    intro arg harg
    unfold rangeField.target
    split
    · trivial
    · trivial
    · exact Operand.placed_pos arg harg
  obtain ⟨pos, assigns, declared, commands⟩ := pipe
  unfold rangeField
  dsimp only
  split
  · next command =>
    obtain ⟨commandPos, args⟩ := command
    obtain ⟨-, -, ⟨hcommand, hargs⟩, -⟩ := h
    dsimp only
    split
    · exact htarget hargs.1
    · obtain ⟨hcall, harg, -⟩ := hargs
      split
      · exact htarget harg
      · exact hcall
    · exact hcommand
  · exact h.1

end Pipeline

theorem Operand.path_points (depth : Nat) : ∀ operand : Operand, operand.Placed P →
    Points P (fun _ => True) (operand.path depth)
  | .dot _, _ => trivial
  | .field _ names, h => fieldPath_points h depth names
  | .chain base fields, h => by
    rw [Operand.path]
    have hbase := path_points depth base h
    split
    · next herror => exact hbase.of_error herror
    next path _ =>
    have hfields := fieldPath_points (base.placed_pos h) (depth + path.length) fields
    split
    · next herror => exact hfields.of_error herror
    · trivial
  | .group ⟨pos, assigns, declared, commands⟩, h => by
    unfold Operand.path
    have hindexed := Pipeline.indexedField?_points h
    split
    · next herror => exact hindexed.of_error herror
    · next hok => exact elementPath_points (hindexed.of_ok hok _ rfl) depth _
    · split
      · next inner _ =>
        obtain ⟨-, -, ⟨-, hinner, -⟩, -⟩ := h
        exact path_points depth inner hinner
      · exact h.1
  | .var _ _ _, h | .identifier _ _, h | .string _ _, h | .number _ _, h | .bool _ _, h
  | .nil _, h => h

/-! ## Trees -/

mutual

theorem Operand.tree_points (depth : Nat) : ∀ operand : Operand, operand.Placed P →
    Points P (fun _ => True) (operand.tree depth)
  | .field _ names, h => (fieldPath_points h depth names).map fun _ _ => trivial
  | .chain base fields, h =>
    (Operand.path_points depth (.chain base fields) h).map fun _ _ => trivial
  | .group pipe, h => pipelineTree_points depth pipe h
  | .dot _, _ | .var _ _ _, _ | .identifier _ _, _ | .string _ _, _ | .number _ _, _ | .bool _ _, _
  | .nil _, _ => trivial
termination_by structural operand => operand

theorem pipelineTree_points (depth : Nat) : ∀ pipe : Pipeline Operand, PipelinePlaced P pipe →
    Points P (fun _ => True) (pipelineTree depth pipe)
  | ⟨pos, assigns, declared, commands⟩, h => by
    rw [pipelineTree]
    have hindexed := Pipeline.indexedField?_points h
    split
    · next herror => exact hindexed.of_error herror
    · next hok =>
      exact (elementPath_points (hindexed.of_ok hok _ rfl) depth _).map fun _ _ => trivial
    · exact commandsTree_points depth commands .empty h.2.2
termination_by structural pipe => pipe

theorem commandsTree_points (depth : Nat) : ∀ (commands : List (Command Operand)) (t : CallTree),
    CommandsPlaced P commands → Points P (fun _ => True) (commandsTree depth t commands)
  | [], _, _ => trivial
  | command :: rest, t, h => by
    rw [commandsTree]
    have hcommand := commandTree_points depth command t h.1
    split
    · next herror => exact hcommand.of_error herror
    · next t _ => exact commandsTree_points depth rest t h.2
termination_by structural commands => commands

theorem commandTree_points (depth : Nat) : ∀ (command : Command Operand) (t : CallTree),
    CommandPlaced P command → Points P (fun _ => True) (commandTree depth t command)
  | ⟨_, args⟩, t, h => operandsTree_points depth args t h.2
termination_by structural command => command

theorem operandsTree_points (depth : Nat) : ∀ (operands : List Operand) (t : CallTree),
    OperandsPlaced P operands → Points P (fun _ => True) (operandsTree depth t operands)
  | [], _, _ => trivial
  | operand :: rest, t, h => by
    rw [operandsTree]
    have hoperand := operand.tree_points depth h.1
    split
    · next herror => exact hoperand.of_error herror
    · next s _ => exact operandsTree_points depth rest (t.merge s) h.2
termination_by structural operands => operands

end

mutual

/-- **Building a tree makes up no places.** -/
theorem Node.tree_points : ∀ (depth : Nat) (node : Node), node.Placed P →
    Points P (fun _ => True) (node.tree depth)
  | _, .text _ _, _ => trivial
  | _, .action _ pipe, h => pipelineTree_points _ pipe h.2
  | depth, .branch .conditional _ pipe body alternative, h => by
    obtain ⟨-, hpipe, hbody, halternative⟩ := h
    rw [Node.tree]
    have hcondition := pipelineTree_points depth pipe hpipe
    split
    · next herror => exact hcondition.of_error herror
    next t _ =>
    have hlist := listTree_points depth body t hbody
    split
    · next herror => exact hlist.of_error herror
    · next t _ => exact alternativeTree_points depth alternative t halternative
  | depth, .branch .range pos pipe body alternative, h => by
    obtain ⟨hpos, hpipe, hbody, halternative⟩ := h
    rw [Node.tree]
    have htarget := Pipeline.rangeField_points hpipe
    split
    · next herror => exact htarget.of_error herror
    next names _ =>
    have helement := elementPath_points hpos depth names
    split
    · next herror => exact helement.of_error herror
    next path _ =>
    have hlist := listTree_points (depth + path.length) body .empty hbody
    split
    · next herror => exact hlist.of_error herror
    · next t _ => exact alternativeTree_points depth alternative (t.under path) halternative
  | _, .branch .focus _ _ _ _, h | _, .template _ _ _, h => h.1
  | _, .leave _, h | _, .skip _, h => h
termination_by structural _ node => node

theorem listTree_points : ∀ (depth : Nat) (list : NodeList Node) (t : CallTree),
    ListPlaced P list → Points P (fun _ => True) (listTree depth t list)
  | depth, ⟨_, nodes⟩, t, h => nodesTree_points depth nodes t h.2
termination_by structural _ list => list

theorem alternativeTree_points : ∀ (depth : Nat) (list : Option (NodeList Node)) (t : CallTree),
    AlternativePlaced P list → Points P (fun _ => True) (alternativeTree depth t list)
  | _, none, _, _ => trivial
  | depth, some list, t, h => listTree_points depth list t h
termination_by structural _ list => list

theorem nodesTree_points : ∀ (depth : Nat) (nodes : List Node) (t : CallTree),
    NodesPlaced P nodes → Points P (fun _ => True) (nodesTree depth t nodes)
  | _, [], _, _ => trivial
  | depth, node :: rest, t, h => by
    rw [nodesTree]
    have hnode := node.tree_points depth h.1
    split
    · next herror => exact hnode.of_error herror
    · next s _ => exact nodesTree_points depth rest (t.merge s) h.2
termination_by structural _ nodes => nodes

end

/-! ## Whole sources -/

/-- **A source without a call tree is refused at one of its boundaries.** -/
theorem CallTree.ofSource_points (source : String) :
    Points (IsBoundary source.toList) (fun _ => True) (CallTree.ofSource source) := by
  rw [CallTree.ofSource]
  have htemplate := Template.ofSource_points source
  split
  · next herror => exact htemplate.of_error herror
  · next template hok => exact listTree_points 0 template .empty (htemplate.of_ok hok)

/-- **Every refusal of a template points into its source.** Line and column are those behind some
first characters of it: the line counts the line feeds among these, the column what follows the last
line feed. For sources of the given length both fit into 32 bits. -/
theorem CallTree.ofSource_error_pos {source : String} {e : TemplateError}
    (hlength : source.length < UInt32.size - 1) (h : CallTree.ofSource source = .error e) :
    (CheckError.template e).isTemplateError = true ∧
    (∃ before, before <+: source.toList ∧ e.pos.line = 1 + before.count '\n' ∧
      e.pos.column = 1 + (before.rtakeWhile (· != '\n')).length) ∧
    e.pos.line < UInt32.size ∧ e.pos.column < UInt32.size := by
  have hpoints := CallTree.ofSource_points source
  rw [h] at hpoints
  have hboundary : IsBoundary source.toList e.pos := hpoints
  have hline := hboundary.line_le
  have hcolumn := hboundary.column_le
  rw [String.length_toList] at hline hcolumn
  exact ⟨rfl, hboundary.exists_prefix, by omega, by omega⟩

/-- A call with too many indices, on the third line and inside other parentheses. -/
theorem CallTree.ofSource_error_pos_index :
    let source := "Hi\n\x7b\x7bif .A\x7d\x7d\n" ++
      "  \x7b\x7blen (index .B 1 2)\x7d\x7d\x7b\x7bend\x7d\x7d"
    ∃ e, CallTree.ofSource source = .error e ∧ source.length < UInt32.size - 1 ∧ e.pos = ⟨3, 10⟩ ∧
      (CheckError.template e).isTemplateError = true ∧
      (∃ before, before <+: source.toList ∧ e.pos.line = 1 + before.count '\n' ∧
        e.pos.column = 1 + (before.rtakeWhile (· != '\n')).length) ∧
      e.pos.line < UInt32.size ∧ e.pos.column < UInt32.size := by
  intro source
  have hrefused : ((CallTree.ofSource source).map fun _ => ()).mapError TemplateError.pos =
      .error ⟨3, 10⟩ := by decide +kernel
  have hlength : source.length < UInt32.size - 1 := by decide
  cases hsource : CallTree.ofSource source with
  | ok t =>
    rw [hsource] at hrefused
    cases hrefused
  | error e =>
    rw [hsource] at hrefused
    exact ⟨e, rfl, hlength, Except.error.inj hrefused, ofSource_error_pos hlength hsource⟩

end Fieldwise
