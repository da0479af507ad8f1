import Fieldwise.Proofs.CallTree.Refusals
import Fieldwise.Proofs.Outcome

/-!
# Calls of `index` with a wrong number of arguments

A call of `index` on a field picks an element only with exactly one further argument. With another
number of them it is refused where it stands alone in a pipeline that declares no variable. Beside
other commands, or behind a declaration, it is read like any other call.

* `Command.Miscounts`, `Pipeline.IsLone` : such a call, and the pipelines in which it is noticed.
* `Operand.tree_counts`, `pipelineTree_counts`, `Node.tree_counts` : building refuses a number of
  arguments only at a lone call that is part of what is built.
* `CallTree.ofSource_miscounted` : for whole sources, in both directions.
-/

set_option autoImplicit false

namespace Fieldwise

/-! ## Miscounted calls -/

/-- The command calls `index`, whose name stands at `pos`, with a field and not exactly one further
argument; there are `count` arguments in all. -/
def Command.MiscountsAt (call : Command Operand) (pos : Pos) (count : Nat) : Prop :=
  ∃ fieldPos names indices,
    call.args = .identifier pos indexFunction :: .field fieldPos names :: indices ∧
      indices.length ≠ 1 ∧ count = indices.length + 1

/-- The command calls `index` with a field and not exactly one further argument. -/
def Command.Miscounts (call : Command Operand) : Prop :=
  ∃ pos count, call.MiscountsAt pos count

/-- Whether the command is such a call, read off its arguments. -/
def Command.isMiscount : Command Operand → Bool
  | ⟨_, .identifier _ name :: .field _ _ :: indices⟩ =>
    name == indexFunction && indices.length != 1
  | _ => false

theorem Command.isMiscount_iff (call : Command Operand) :
    call.isMiscount = true ↔ call.Miscounts := by
  obtain ⟨callPos, args⟩ := call
  constructor
  · intro h
    unfold isMiscount at h
    split at h
    · next namePos name fieldPos names indices hcall =>
      simp only [Bool.and_eq_true, beq_iff_eq, bne_iff_ne] at h
      obtain ⟨rfl, hlength⟩ := h
      cases hcall
      exact ⟨namePos, _, fieldPos, names, indices, rfl, hlength, rfl⟩
    · cases h
  · rintro ⟨pos, count, fieldPos, names, indices, hargs, hlength, -⟩
    simp only at hargs
    subst hargs
    simp [isMiscount, hlength]

instance : DecidablePred Command.Miscounts := fun call =>
  decidable_of_iff _ call.isMiscount_iff

namespace Pipeline

/-- The pipeline is the command and nothing else: no variable takes its value. -/
def IsLone (pipe : Pipeline Operand) (call : Command Operand) : Prop :=
  pipe.declared = [] ∧ pipe.commands = [call]

variable {pipe : Pipeline Operand}

theorem indexesOnce_iff : pipe.IndexesOnce ↔ ∀ call, pipe.IsLone call → ¬ call.Miscounts := by
  constructor
  · rintro honce ⟨commandPos, args⟩ ⟨hdeclared, hcommands⟩
      ⟨pos, count, fieldPos, names, indices, hargs, hlength, -⟩
    simp only at hargs
    subst hargs
    exact hlength (honce commandPos pos fieldPos names indices hdeclared hcommands)
  · intro h commandPos pos fieldPos names indices hdeclared hcommands
    by_contra hlength
    exact h _ ⟨hdeclared, hcommands⟩ ⟨pos, _, fieldPos, names, indices, rfl, hlength, rfl⟩

/-- A call that is refused for its number of arguments is a lone one and miscounted. -/
theorem miscountsAt_of_error {pos : Pos} {count : Nat}
    (h : pipe.indexedField? = .error ⟨pos, .indexArguments count⟩) :
    ∃ call, pipe.IsLone call ∧ call.MiscountsAt pos count := by
  unfold indexedField? at h
  split at h
  · next command hdeclared hcommands =>
    refine ⟨command, ⟨hdeclared, hcommands⟩, ?_⟩
    split at h
    · next callPos name fieldPos names indices hargs =>
      split at h
      · next hname =>
        split at h
        · cases h
        · cases h
        · next hmany =>
          cases h
          refine ⟨fieldPos, names, indices, hname ▸ hargs, fun hlength => ?_, rfl⟩
          obtain ⟨index, hindex⟩ := List.length_eq_one_iff.mp hlength
          exact hmany index hindex
      · cases h
    · cases h
  · cases h

end Pipeline

namespace Template

variable (template : Template)

/-- The pipeline belongs to an action or a conditional, or stands in parentheses in such a pipeline,
at any depth. -/
def Visits (pipe : Pipeline Operand) : Prop :=
  pipe ∈ template.shown ∨ .group pipe ∈ template.operands

/-- What a template must satisfy to have a call tree, calls of `index` apart. -/
structure Traceable : Prop where
  nodes : ∀ node ∈ listParts template, node.IsSupported
  ranges : ∀ node ∈ listParts template, ∀ pipe ∈ node.target?, pipe.RangesOverField
  chains : ∀ base fields, .chain base fields ∈ template.operands → base.Rooted
  depth : ∀ use ∈ listUses template, use.length ≤ maxTreeDepth

variable {template}

theorem followable_iff_traceable : template.Followable ↔
    template.Traceable ∧
      ∀ pipe call, template.Visits pipe → pipe.IsLone call → ¬ call.Miscounts := by
  constructor
  · intro h
    refine ⟨⟨h.nodes, h.ranges, h.chains, h.depth⟩, fun pipe call hvisits => ?_⟩
    exact Pipeline.indexesOnce_iff.mp (h.indexed pipe hvisits) call
  · rintro ⟨h, hcounts⟩
    refine ⟨h.nodes, h.ranges, fun pipe hvisits => ?_, h.chains, h.depth⟩
    exact Pipeline.indexesOnce_iff.mpr fun call => hcounts pipe call hvisits

end Template

/-! ## What is refused for a number of arguments

Place and number are fixed. Each lemma says that no such refusal comes from something none of whose
pipelines is a lone call of `index` with that number of arguments at that place. -/

section Spares

variable {α β : Type} {pos : Pos} {count : Nat}

/-- The result is not a refusal of that number of arguments at that place. -/
def Spares (pos : Pos) (count : Nat) (r : Except TemplateError α) : Prop :=
  r ≠ .error ⟨pos, .indexArguments count⟩

theorem Spares.of_error {r : Except TemplateError α} {e : TemplateError} (h : Spares pos count r)
    (he : r = .error e) : Spares pos count (.error e : Except TemplateError β) := by
  intro hsame
  cases hsame
  exact h he

theorem Spares.ok (a : α) : Spares pos count (.ok a) := nofun

theorem Spares.map {r : Except TemplateError α} (h : Spares pos count r) (f : α → β) :
    Spares pos count (r.map f) := by
  cases hr : r with
  | ok a => exact .ok (f a)
  | error e => exact h.of_error hr

/-- What is refused for another reason. -/
theorem Spares.other {e : TemplateError} (h : ∀ n, e.fault ≠ .indexArguments n) :
    Spares pos count (.error e : Except TemplateError α) := by
  intro hsame
  cases hsame
  exact h count rfl

/-- The pipeline is not a lone call of `index` with that number of arguments at that place. -/
def Pipeline.Counts (pos : Pos) (count : Nat) (pipe : Pipeline Operand) : Prop :=
  ∀ call, pipe.IsLone call → ¬ call.MiscountsAt pos count

/-- The operand is no such call in parentheses. -/
def Operand.Counts (pos : Pos) (count : Nat) : Operand → Prop
  | .group pipe => pipe.Counts pos count
  | _ => True

/-- The pipeline of an action or a conditional is no such call, and neither is an operand in it. -/
def Node.Counts (pos : Pos) (count : Nat) (node : Node) : Prop :=
  ∀ pipe ∈ node.shown?, pipe.Counts pos count ∧ ∀ part ∈ pipelineParts pipe, part.Counts pos count

theorem checkDepth_counts (depth : Nat) (place : Pos) :
    Spares pos count (checkDepth depth place) := by
  rw [checkDepth]
  split
  · exact .ok _
  · exact .other fun _ => TemplateFault.noConfusion

theorem fieldPath_counts (depth : Nat) (place : Pos) (names : List String) :
    Spares pos count (fieldPath depth place names) := by
  rw [fieldPath]
  have hdepth : Spares pos count _ := checkDepth_counts (depth + names.length) place
  split
  · next herror => exact hdepth.of_error herror
  · exact .ok _

theorem elementPath_counts (depth : Nat) (place : Pos) (names : List String) :
    Spares pos count (elementPath depth place names) := by
  rw [elementPath]
  have hfield : Spares pos count _ := fieldPath_counts depth place names
  have hdepth : Spares pos count _ := checkDepth_counts (depth + names.length + 1) place
  split
  · next herror => exact hfield.of_error herror
  split
  · next herror => exact hdepth.of_error herror
  · exact .ok _

namespace Pipeline

variable {pipe : Pipeline Operand}

theorem indexedField?_counts (h : pipe.Counts pos count) :
    Spares pos count pipe.indexedField? := by
  intro herror
  obtain ⟨call, hlone, hmiscounts⟩ := miscountsAt_of_error herror
  exact h call hlone hmiscounts

theorem target_counts (arg : Operand) : Spares pos count (rangeField.target arg) := by
  cases arg with
  | dot _ => exact .ok _
  | field _ _ => exact .ok _
  | _ => exact .other fun _ => TemplateFault.noConfusion

/-- What a range goes over is no place for an index. -/
theorem rangeField_counts (pipe : Pipeline Operand) : Spares pos count pipe.rangeField := by
  unfold rangeField
  split
  · split
    · exact target_counts _
    · split
      · exact target_counts _
      · exact .other fun _ => TemplateFault.noConfusion
    · exact .other fun _ => TemplateFault.noConfusion
  · exact .other fun _ => TemplateFault.noConfusion

end Pipeline

/-! ### Operands and pipelines -/

theorem Operand.path_counts (depth : Nat) : ∀ operand : Operand,
    (∀ part ∈ operand.parts, part.Counts pos count) → Spares pos count (operand.path depth)
  | .dot _, _ => .ok _
  | .field place names, _ => fieldPath_counts depth place names
  | .chain base fields, h => by
    rw [Operand.parts, List.forall_mem_cons] at h
    have hbase := Operand.path_counts depth base h.2
    rw [Operand.path]
    split
    · next herror => exact hbase.of_error herror
    next path _ =>
    have hfields : Spares pos count _ := fieldPath_counts (depth + path.length) base.pos fields
    split
    · next herror => exact hfields.of_error herror
    · exact .ok _
  | .group ⟨place, assigns, declared, commands⟩, h => by
    rw [Operand.parts, List.forall_mem_cons] at h
    have hindexed : Spares pos count _ := Pipeline.indexedField?_counts h.1
    unfold Operand.path
    split
    · next herror => exact hindexed.of_error herror
    · exact elementPath_counts depth _ _
    · next hcall =>
      split
      · next commandPos inner =>
        refine Operand.path_counts depth inner fun part hpart => h.2 part ?_
        simpa [pipelineParts, commandsParts, commandParts, operandsParts] using hpart
      · exact .other fun _ => TemplateFault.noConfusion
  | .var _ _ _, _ | .identifier _ _, _ | .string _ _, _ | .number _ _, _ | .bool _ _, _
  | .nil _, _ => .other fun _ => TemplateFault.noConfusion

mutual

/-- **Building an operand** refuses a number of arguments only at a lone call in it. -/
theorem Operand.tree_counts (depth : Nat) : ∀ operand : Operand,
    (∀ part ∈ operand.parts, part.Counts pos count) → Spares pos count (operand.tree depth)
  | .field place names, _ => (fieldPath_counts depth place names).map _
  | .chain base fields, h => (Operand.path_counts depth (.chain base fields) h).map _
  | .group pipe, h => by
    rw [Operand.parts, List.forall_mem_cons] at h
    exact pipelineTree_counts depth pipe h.1 h.2
  | .dot _, _ | .var _ _ _, _ | .identifier _ _, _ | .string _ _, _ | .number _ _, _ | .bool _ _, _
  | .nil _, _ => .ok _
termination_by structural operand => operand

theorem pipelineTree_counts (depth : Nat) : ∀ pipe : Pipeline Operand, pipe.Counts pos count →
    (∀ part ∈ pipelineParts pipe, part.Counts pos count) →
    Spares pos count (pipelineTree depth pipe)
  | ⟨place, assigns, declared, commands⟩, hpipe, h => by
    have hindexed := Pipeline.indexedField?_counts hpipe
    rw [pipelineTree]
    split
    · next herror => exact hindexed.of_error herror
    · exact (elementPath_counts depth _ _).map _
    · exact commandsTree_counts depth .empty commands h
termination_by structural pipe => pipe

theorem commandsTree_counts (depth : Nat) : ∀ (t : CallTree) (commands : List (Command Operand)),
    (∀ part ∈ commandsParts commands, part.Counts pos count) →
    Spares pos count (commandsTree depth t commands)
  | t, [], _ => .ok t
  | t, command :: rest, h => by
    rw [commandsParts, List.forall_mem_append] at h
    have hcommand := commandTree_counts depth t command h.1
    rw [commandsTree]
    split
    · next herror => exact hcommand.of_error herror
    · next t _ => exact commandsTree_counts depth t rest h.2
termination_by structural _ commands => commands

theorem commandTree_counts (depth : Nat) : ∀ (t : CallTree) (command : Command Operand),
    (∀ part ∈ commandParts command, part.Counts pos count) →
    Spares pos count (commandTree depth t command)
  | t, ⟨_, args⟩, h => operandsTree_counts depth t args h
termination_by structural _ command => command

theorem operandsTree_counts (depth : Nat) : ∀ (t : CallTree) (operands : List Operand),
    (∀ part ∈ operandsParts operands, part.Counts pos count) →
    Spares pos count (operandsTree depth t operands)
  | t, [], _ => .ok t
  | t, operand :: rest, h => by
    rw [operandsParts, List.forall_mem_append] at h
    have hoperand := operand.tree_counts depth h.1
    rw [operandsTree]
    split
    · next herror => exact hoperand.of_error herror
    · next s _ => exact operandsTree_counts depth (t.merge s) rest h.2
termination_by structural _ operands => operands

end

/-! ### Nodes -/

mutual

/-- **Building a node** refuses a number of arguments only at a lone call that an action or a
conditional in it shows. -/
theorem Node.tree_counts : ∀ (depth : Nat) (node : Node),
    (∀ part ∈ node.parts, part.Counts pos count) → Spares pos count (node.tree depth)
  | _, .text _ _, _ => .ok _
  | depth, .action place pipe, h => by
    obtain ⟨hpipe, hparts⟩ := h (.action place pipe) (List.mem_singleton_self _) pipe rfl
    exact pipelineTree_counts depth pipe hpipe hparts
  | depth, .branch .conditional place pipe body alternative, h => by
    rw [Node.parts, List.forall_mem_cons, List.forall_mem_append] at h
    obtain ⟨hnode, hbody, halternative⟩ := h
    obtain ⟨hpipe, hparts⟩ := hnode pipe rfl
    have hcondition := pipelineTree_counts depth pipe hpipe hparts
    rw [Node.tree]
    split
    · next herror => exact hcondition.of_error herror
    next t _ =>
    have hlist := listTree_counts depth t body hbody
    split
    · next herror => exact hlist.of_error herror
    · next t _ => exact alternativeTree_counts depth t alternative halternative
  | depth, .branch .range place pipe body alternative, h => by
    rw [Node.parts, List.forall_mem_cons, List.forall_mem_append] at h
    obtain ⟨-, hbody, halternative⟩ := h
    have htarget : Spares pos count _ := pipe.rangeField_counts
    rw [Node.tree]
    split
    · next herror => exact htarget.of_error herror
    next names _ =>
    have helement : Spares pos count _ := elementPath_counts depth place names
    split
    · next herror => exact helement.of_error herror
    next path _ =>
    have hlist := listTree_counts (depth + path.length) .empty body hbody
    split
    · next herror => exact hlist.of_error herror
    · next t _ => exact alternativeTree_counts depth (t.under path) alternative halternative
  | _, .branch .focus _ _ _ _, _ | _, .template _ _ _, _ | _, .leave _, _ | _, .skip _, _ =>
    .other fun _ => TemplateFault.noConfusion
termination_by structural _ node => node

theorem listTree_counts : ∀ (depth : Nat) (t : CallTree) (list : NodeList Node),
    (∀ part ∈ listParts list, part.Counts pos count) → Spares pos count (listTree depth t list)
  | depth, t, ⟨_, nodes⟩, h => nodesTree_counts depth t nodes h
termination_by structural _ _ list => list

theorem alternativeTree_counts : ∀ (depth : Nat) (t : CallTree) (list : Option (NodeList Node)),
    (∀ part ∈ alternativeParts list, part.Counts pos count) →
    Spares pos count (alternativeTree depth t list)
  | _, t, none, _ => .ok t
  | depth, t, some list, h => listTree_counts depth t list h
termination_by structural _ _ list => list

theorem nodesTree_counts : ∀ (depth : Nat) (t : CallTree) (nodes : List Node),
    (∀ part ∈ nodesParts nodes, part.Counts pos count) → Spares pos count (nodesTree depth t nodes)
  | _, t, [], _ => .ok t
  | depth, t, node :: rest, h => by
    rw [nodesParts, List.forall_mem_append] at h
    have hnode := node.tree_counts depth h.1
    rw [nodesTree]
    split
    · next herror => exact hnode.of_error herror
    · next s _ => exact nodesTree_counts depth (t.merge s) rest h.2
termination_by structural _ _ nodes => nodes

end

end Spares

/-! ## Whole templates -/

/-- A template is refused for a number of arguments only where it visits such a call. -/
theorem CallTree.ofTemplate_miscounted {template : Template} {pos : Pos} {count : Nat}
    (h : CallTree.ofTemplate template = .error ⟨pos, .indexArguments count⟩) :
    ∃ pipe call, template.Visits pipe ∧ pipe.IsLone call ∧ call.MiscountsAt pos count := by
  by_contra hnone
  have hcounts : ∀ pipe, template.Visits pipe → pipe.Counts pos count := by
    intro pipe hvisits call hlone hmiscounts
    exact hnone ⟨pipe, call, hvisits, hlone, hmiscounts⟩
  refine listTree_counts 0 .empty template (fun node hnode pipe hpipe => ?_) h
  have hshown : pipe ∈ template.shown := List.mem_filterMap.mpr ⟨node, hnode, hpipe⟩
  refine ⟨hcounts pipe (.inl hshown), fun part hpart => ?_⟩
  have hoperand : part ∈ template.operands := List.mem_flatMap.mpr ⟨pipe, hshown, hpart⟩
  cases part with
  | group inner => exact hcounts inner (.inr hoperand)
  | _ => trivial

/-- **A miscounted call is refused where it stands alone, and only there.** Let a source be read as
a template. If the builder visits a pipeline that is such a call and nothing else, the source has no
call tree. A refusal for the number of arguments names a visited call of that kind, with its place.
If the template has nothing else that the builder refuses, it is accepted whatever miscounted calls
stand beside other commands or behind declarations. -/
theorem CallTree.ofSource_miscounted {source : String} {template : Template}
    (h : Template.ofSource source = .ok template) :
    (∀ pipe call, template.Visits pipe → pipe.IsLone call → call.Miscounts →
      ∃ e, CallTree.ofSource source = .error e) ∧
    (∀ pos count, CallTree.ofSource source = .error ⟨pos, .indexArguments count⟩ →
      ∃ pipe call, template.Visits pipe ∧ pipe.IsLone call ∧ call.MiscountsAt pos count) ∧
    (template.Traceable →
      (∀ pipe call, template.Visits pipe → pipe.IsLone call → ¬ call.Miscounts) →
      ∃ t, CallTree.ofSource source = .ok t) := by
  have hsource : CallTree.ofSource source = CallTree.ofTemplate template := by
    rw [CallTree.ofSource, h]
  have hok : (∃ t, CallTree.ofTemplate template = .ok t) ↔ template.Followable := by
    rw [(ofTemplate_judges template).ok_iff, Template.followable_iff]
    simp only [Fits, Nat.zero_add]
  rw [hsource]
  refine ⟨fun pipe call hvisits hlone hmiscounts => ?_,
    fun pos count herror => ofTemplate_miscounted herror, fun htraceable hcounts => ?_⟩
  · cases htree : CallTree.ofTemplate template with
    | error e => exact ⟨e, rfl⟩
    | ok t =>
      have hcounts := (Template.followable_iff_traceable.mp (hok.mp ⟨t, htree⟩)).2
      exact absurd hmiscounts (hcounts pipe call hvisits hlone)
  · exact hok.mpr (Template.followable_iff_traceable.mpr ⟨htraceable, hcounts⟩)

/-- In parentheses and below another call the miscounted one is still alone in its pipeline. -/
theorem CallTree.ofSource_miscounted_nested :
    let source := "\x7b\x7blen (index .A 1 2)\x7d\x7d"
    ∃ template, Template.ofSource source = .ok template ∧
      ∃ pipe call, template.Visits pipe ∧ pipe.IsLone call ∧ call.MiscountsAt ⟨1, 8⟩ 3 ∧
        ∃ e, CallTree.ofSource source = .error e := by
  intro source
  obtain ⟨template, htemplate, -⟩ :=
    exists_ok_of_any (x := Template.ofSource source) (p := fun _ => true) (by decide +kernel)
  have hrefused : (CallTree.ofSource source).map (fun _ => ()) =
      .error ⟨⟨1, 8⟩, .indexArguments 3⟩ := by decide +kernel
  have herror : CallTree.ofSource source = .error ⟨⟨1, 8⟩, .indexArguments 3⟩ :=
    map_eq_error_iff.mp hrefused
  obtain ⟨hlone, hnamed, -⟩ := ofSource_miscounted htemplate
  obtain ⟨pipe, call, hvisits, hcall, hmiscounts⟩ := hnamed _ _ herror
  exact ⟨template, htemplate, pipe, call, hvisits, hcall, hmiscounts,
    hlone pipe call hvisits hcall ⟨_, _, hmiscounts⟩⟩

/-- It is not so that a miscounted call is refused wherever it stands: behind the declaration of a
variable the builder does not notice it. -/
theorem CallTree.not_miscounted_refused :
    ¬ ∀ (source : String) (template : Template) (pipe : Pipeline Operand) (call : Command Operand),
      Template.ofSource source = .ok template → template.Visits pipe → call ∈ pipe.commands →
      call.Miscounts → ∃ e, CallTree.ofSource source = .error e := by
  intro hrefused
  let source := "\x7b\x7b$x := index .Items 0 1\x7d\x7d"
  obtain ⟨template, htemplate, hany⟩ := exists_ok_of_any (x := Template.ofSource source)
    (p := fun template => template.shown.any fun pipe =>
      pipe.commands.any fun call => decide call.Miscounts)
    (by decide +kernel)
  obtain ⟨t, ht, -⟩ := exists_ok_of_any (x := CallTree.ofSource source) (p := fun _ => true)
    (by decide +kernel)
  obtain ⟨pipe, hpipe, hany⟩ := List.any_eq_true.mp hany
  obtain ⟨call, hcall, hmiscounts⟩ := List.any_eq_true.mp hany
  obtain ⟨e, he⟩ :=
    hrefused source template pipe call htemplate (.inl hpipe) hcall (of_decide_eq_true hmiscounts)
  cases ht.symm.trans he

end Fieldwise
