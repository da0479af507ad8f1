import Fieldwise.CallTree.Build
import Fieldwise.Proofs.CallTree.Paths

/-!
# The paths that a template uses

* `Operand.uses`, `pipelineUses`, `Node.uses`, `listUses` : the paths that the syntax of a template
  contributes, by recursion on the syntax alone.
* `CallTree.Adds` : a tree is another one with some paths added.
* `Operand.tree_adds`, `Node.tree_adds` : each part of a template adds the paths it contributes.
* `isSome_get?_ofTemplate_iff` : the tree of a template has the root, the contributed paths and
  the places on the way to them.

The tree of a part is built below the place where the part stands, and `depth` only limits it: a
part that would reach too deep is refused, and otherwise its tree does not depend on `depth`.
-/

set_option autoImplicit false

namespace Fieldwise

/-! ## What the syntax contributes -/

namespace Pipeline

/-- The names of the field in a lone call of `index` with a field and a whole number. -/
def picked? (pipe : Pipeline Operand) : Option (List String) :=
  match pipe.declared, pipe.commands with
  | [], [⟨_, [.identifier _ name, .field _ names, .number _ text]⟩] =>
    if name = indexFunction ∧ isWholeNumber text = true then some names else none
  | _, _ => none

/-- The names of the field that a range goes over, alone or handed to a helper. The dot has no
names. -/
def rangeNames (pipe : Pipeline Operand) : List String :=
  match pipe.commands with
  | [⟨_, [.field _ names]⟩] => names
  | [⟨_, [.identifier _ _, .field _ names]⟩] => names
  | _ => []

end Pipeline

/-- The path from the dot to the value of an operand that fields are taken of. -/
def Operand.basePath : Operand → List Step
  | .field _ names => fieldSteps names
  | .chain base fields => base.basePath ++ fieldSteps fields
  | .group ⟨pos, assigns, declared, commands⟩ =>
    match Pipeline.picked? ⟨pos, assigns, declared, commands⟩ with
    | some names => fieldSteps names ++ [.element]
    | none =>
      match declared, commands with
      | [], [⟨_, [inner]⟩] => inner.basePath
      | _, _ => []
  | _ => []
termination_by structural operand => operand

mutual

/-- The paths that an operand contributes. -/
def Operand.uses : Operand → List (List Step)
  | .field _ names => [fieldSteps names]
  | .chain base fields => [base.basePath ++ fieldSteps fields]
  | .group pipe => pipelineUses pipe
  | _ => []
termination_by structural operand => operand

/-- The paths that a pipeline contributes. -/
def pipelineUses : Pipeline Operand → List (List Step)
  | ⟨pos, assigns, declared, commands⟩ =>
    match Pipeline.picked? ⟨pos, assigns, declared, commands⟩ with
    | some names => [fieldSteps names ++ [.element]]
    | none => commandsUses commands
termination_by structural pipe => pipe

/-- The paths that some commands contribute. -/
def commandsUses : List (Command Operand) → List (List Step)
  | [] => []
  | command :: rest => commandUses command ++ commandsUses rest
termination_by structural commands => commands

/-- The paths that a command contributes. -/
def commandUses : Command Operand → List (List Step)
  | ⟨_, args⟩ => operandsUses args
termination_by structural command => command

/-- The paths that some operands contribute. -/
def operandsUses : List Operand → List (List Step)
  | [] => []
  | operand :: rest => operand.uses ++ operandsUses rest
termination_by structural operands => operands

end

mutual

/-- The paths that a node contributes. The body of a range stands below the elements that it goes
over; its alternative does not. -/
def Node.uses : Node → List (List Step)
  | .action _ pipe => pipelineUses pipe
  | .branch .conditional _ pipe body alternative =>
    pipelineUses pipe ++ listUses body ++ alternativeUses alternative
  | .branch .range _ pipe body alternative =>
    let target := fieldSteps pipe.rangeNames ++ [.element]
    target :: (listUses body).map (target ++ ·) ++ alternativeUses alternative
  | _ => []
termination_by structural node => node

/-- The paths that a list of nodes contributes. -/
def listUses : NodeList Node → List (List Step)
  | ⟨_, nodes⟩ => nodesUses nodes
termination_by structural list => list

/-- The paths that a list which may be missing contributes. -/
def alternativeUses : Option (NodeList Node) → List (List Step)
  | none => []
  | some list => listUses list
termination_by structural list => list

/-- The paths that some nodes contribute. -/
def nodesUses : List Node → List (List Step)
  | [] => []
  | node :: rest => node.uses ++ nodesUses rest
termination_by structural nodes => nodes

end

/-! ## Paths -/

theorem fieldPath_ok {depth : Nat} {pos : Pos} {names : List String} {path : List Step}
    (h : fieldPath depth pos names = .ok path) : path = fieldSteps names := by
  rw [fieldPath] at h
  split at h
  · cases h
  · cases h
    rfl

theorem elementPath_ok {depth : Nat} {pos : Pos} {names : List String} {path : List Step}
    (h : elementPath depth pos names = .ok path) : path = fieldSteps names ++ [.element] := by
  rw [elementPath] at h
  split at h
  · cases h
  rename_i steps hsteps
  split at h
  · cases h
  · cases h
    rw [fieldPath_ok hsteps]

theorem Pipeline.indexedField?_of_picked {pipe : Pipeline Operand} {names : List String}
    (h : pipe.picked? = some names) : ∃ pos, pipe.indexedField? = .ok (some (pos, names)) := by
  unfold picked? at h
  split at h
  · rename_i pos identifierPos name fieldPos names' numberPos text hdeclared hcommands
    split at h
    · rename_i hcall
      cases h
      refine ⟨fieldPos, ?_⟩
      unfold indexedField?
      rw [hdeclared, hcommands]
      simp [hcall]
    · cases h
  · cases h

theorem Pipeline.picked_of_indexedField? {pipe : Pipeline Operand} {pos : Pos}
    {names : List String} (h : pipe.indexedField? = .ok (some (pos, names))) :
    pipe.picked? = some names := by
  unfold indexedField? at h
  split at h
  · rename_i command hdeclared hcommands
    obtain ⟨commandPos, args⟩ := command
    split at h
    · rename_i identifierPos name fieldPos names' indices hargs
      split at h
      · rename_i hname
        split at h
        · rename_i numberPos text
          split at h
          · rename_i hwhole
            cases h
            cases hargs
            unfold picked?
            rw [hdeclared, hcommands]
            exact if_pos ⟨hname, hwhole⟩
          · cases h
        · cases h
        · cases h
      · cases h
    · cases h
  · cases h

/-- The call `index` is followed exactly where it is the lone call that contributes an element,
unless it is refused. -/
theorem Pipeline.indexedField?_ok {pipe : Pipeline Operand} {r : Option (Pos × List String)}
    (h : pipe.indexedField? = .ok r) : pipe.picked? = r.map Prod.snd := by
  cases r with
  | some field => exact Pipeline.picked_of_indexedField? h
  | none =>
    cases hpicked : pipe.picked? with
    | none => rfl
    | some names =>
      obtain ⟨pos, hfield⟩ := Pipeline.indexedField?_of_picked hpicked
      rw [h] at hfield
      cases hfield

/-- A range goes over the field that is its only operand, next to a helper at most. -/
theorem Pipeline.rangeField_ok {pipe : Pipeline Operand} {names : List String}
    (h : pipe.rangeField = .ok names) : pipe.rangeNames = names := by
  unfold rangeField at h
  unfold rangeNames
  split at h
  · rename_i command hcommands
    obtain ⟨commandPos, args⟩ := command
    rw [hcommands]
    simp only at h ⊢
    split at h
    · rename_i arg
      cases arg <;> cases h <;> rfl
    · rename_i pos name arg
      split at h
      · cases arg <;> cases h <;> rfl
      · cases h
    · cases h
  · cases h

theorem Operand.path_ok {depth : Nat} : ∀ (operand : Operand) {path : List Step},
    operand.path depth = .ok path → path = operand.basePath
  | .dot _, _, h => by cases h; rfl
  | .field _ _, _, h => fieldPath_ok h
  | .chain base fields, _, h => by
    rw [Operand.path] at h
    split at h
    · cases h
    rename_i path hpath
    split at h
    · cases h
    rename_i steps hsteps
    cases h
    rw [Operand.basePath, path_ok base hpath, fieldPath_ok hsteps]
  | .group ⟨pos, assigns, declared, commands⟩, path, h => by
    unfold Operand.path at h
    unfold Operand.basePath
    split at h
    · cases h
    · rename_i fieldPos names hindexed
      rw [Pipeline.indexedField?_ok hindexed]
      exact elementPath_ok h
    · rename_i hindexed
      rw [Pipeline.indexedField?_ok hindexed]
      split at h
      · rename_i inner
        exact path_ok inner h
      · cases h
  | .var _ _ _, _, h => by cases h
  | .identifier _ _, _, h => by cases h
  | .string _ _, _, h => by cases h
  | .number _ _, _, h => by cases h
  | .bool _ _, _, h => by cases h
  | .nil _, _, h => by cases h

/-! ## What the trees add -/

/-- The tree of a path that was not refused is nothing but the path. -/
theorem CallTree.Adds.of_map_ofPath {r : Except TemplateError (List Step)} {t : CallTree}
    (h : r.map .ofPath = .ok t) : ∃ path, r = .ok path ∧ CallTree.empty.Adds [path] t := by
  cases r with
  | error e => cases h
  | ok path =>
    cases h
    exact ⟨path, rfl, .ofPath path⟩

mutual

/-- **The tree of an operand** is nothing but the paths that the operand contributes. -/
theorem Operand.tree_adds {depth : Nat} : ∀ (operand : Operand) {t : CallTree},
    operand.tree depth = .ok t → CallTree.empty.Adds operand.uses t
  | .field pos names, _, h => by
    rw [Operand.tree] at h
    rw [Operand.uses]
    obtain ⟨path, hpath, hadds⟩ := CallTree.Adds.of_map_ofPath h
    rw [← fieldPath_ok hpath]
    exact hadds
  | .chain base fields, _, h => by
    rw [Operand.tree] at h
    rw [Operand.uses]
    obtain ⟨path, hpath, hadds⟩ := CallTree.Adds.of_map_ofPath h
    have hbase : path = base.basePath ++ fieldSteps fields := Operand.path_ok _ hpath
    rw [← hbase]
    exact hadds
  | .group pipe, _, h => pipelineTree_adds pipe h
  | .dot _, _, h => by cases h; exact .refl _
  | .var _ _ _, _, h => by cases h; exact .refl _
  | .identifier _ _, _, h => by cases h; exact .refl _
  | .string _ _, _, h => by cases h; exact .refl _
  | .number _ _, _, h => by cases h; exact .refl _
  | .bool _ _, _, h => by cases h; exact .refl _
  | .nil _, _, h => by cases h; exact .refl _
termination_by structural operand => operand

theorem pipelineTree_adds {depth : Nat} : ∀ (pipe : Pipeline Operand) {t : CallTree},
    pipelineTree depth pipe = .ok t → CallTree.empty.Adds (pipelineUses pipe) t
  | ⟨pos, assigns, declared, commands⟩, t, h => by
    rw [pipelineTree] at h
    rw [pipelineUses]
    split at h
    · cases h
    · rename_i fieldPos names hindexed
      rw [Pipeline.indexedField?_ok hindexed]
      obtain ⟨path, hpath, hadds⟩ := CallTree.Adds.of_map_ofPath h
      rw [elementPath_ok hpath] at hadds
      exact hadds
    · rename_i hindexed
      rw [Pipeline.indexedField?_ok hindexed]
      exact commandsTree_adds commands h
termination_by structural pipe => pipe

theorem commandsTree_adds {depth : Nat} : ∀ (commands : List (Command Operand)) {t t' : CallTree},
    commandsTree depth t commands = .ok t' → t.Adds (commandsUses commands) t'
  | [], t, _, h => by
    cases h
    exact .refl t
  | command :: rest, t, _, h => by
    rw [commandsTree] at h
    split at h
    · cases h
    rename_i u hu
    exact (commandTree_adds command hu).trans (commandsTree_adds rest h)
termination_by structural commands => commands

theorem commandTree_adds {depth : Nat} : ∀ (command : Command Operand) {t t' : CallTree},
    commandTree depth t command = .ok t' → t.Adds (commandUses command) t'
  | ⟨_, args⟩, _, _, h => operandsTree_adds args h
termination_by structural command => command

theorem operandsTree_adds {depth : Nat} : ∀ (operands : List Operand) {t t' : CallTree},
    operandsTree depth t operands = .ok t' → t.Adds (operandsUses operands) t'
  | [], t, _, h => by
    cases h
    exact .refl t
  | operand :: rest, t, _, h => by
    rw [operandsTree] at h
    split at h
    · cases h
    rename_i s hs
    exact ((operand.tree_adds hs).merge t).trans (operandsTree_adds rest h)
termination_by structural operands => operands

end

mutual

/-- **The tree of a node** is nothing but the paths that the node contributes. -/
theorem Node.tree_adds {depth : Nat} : ∀ (node : Node) {t : CallTree},
    node.tree depth = .ok t → CallTree.empty.Adds node.uses t
  | .text _ _, _, h => by
    cases h
    exact .refl _
  | .action _ pipe, _, h => pipelineTree_adds pipe h
  | .branch .conditional _ pipe body alternative, _, h => by
    rw [Node.tree] at h
    split at h
    · cases h
    rename_i hpipe
    split at h
    · cases h
    rename_i hbody
    exact ((pipelineTree_adds pipe hpipe).trans (listTree_adds body hbody)).trans
      (alternativeTree_adds alternative h)
  | .branch .range pos pipe body alternative, _, h => by
    rw [Node.tree] at h
    split at h
    · cases h
    rename_i names hnames
    split at h
    · cases h
    rename_i path hpath
    split at h
    · cases h
    rename_i t hbody
    rw [Node.uses, Pipeline.rangeField_ok hnames, ← elementPath_ok hpath]
    -- the body was built apart, whatever the depth it was built at
    have hrange : CallTree.empty.Adds (path :: (listUses body).map (path ++ ·)) (t.under path) :=
      (listTree_adds body hbody).under path
    exact hrange.trans (alternativeTree_adds alternative h)
  | .branch .focus _ _ _ _, _, h => by cases h
  | .template _ _ _, _, h => by cases h
  | .leave _, _, h => by cases h
  | .skip _, _, h => by cases h
termination_by structural node => node

theorem listTree_adds {depth : Nat} : ∀ (list : NodeList Node) {t t' : CallTree},
    listTree depth t list = .ok t' → t.Adds (listUses list) t'
  | ⟨_, nodes⟩, _, _, h => nodesTree_adds nodes h
termination_by structural list => list

theorem alternativeTree_adds {depth : Nat} : ∀ (list : Option (NodeList Node)) {t t' : CallTree},
    alternativeTree depth t list = .ok t' → t.Adds (alternativeUses list) t'
  | none, t, _, h => by
    cases h
    exact .refl t
  | some list, _, _, h => listTree_adds list h
termination_by structural list => list

theorem nodesTree_adds {depth : Nat} : ∀ (nodes : List Node) {t t' : CallTree},
    nodesTree depth t nodes = .ok t' → t.Adds (nodesUses nodes) t'
  | [], t, _, h => by
    cases h
    exact .refl t
  | node :: rest, t, _, h => by
    rw [nodesTree] at h
    split at h
    · cases h
    rename_i s hs
    exact ((node.tree_adds hs).merge t).trans (nodesTree_adds rest h)
termination_by structural nodes => nodes

end

/-- **The tree of a template has exactly the paths that its syntax contributes**, with the root
and all places on the way to them. -/
theorem CallTree.isSome_get?_ofTemplate_iff {template : Template} {t : CallTree}
    (h : CallTree.ofTemplate template = .ok t) (path : List Step) :
    (t.get? path).isSome = true ↔ path = [] ∨ ∃ use ∈ listUses template, path <+: use :=
  (listTree_adds template h).isSome_get?_iff path

/-- A range over a helper's result whose body takes a field of a picked element, and whose
alternative asks for a field of the root. -/
theorem CallTree.isSome_get?_ofTemplate_range :
    let p := Pos.start
    let picked : Pipeline Operand :=
      ⟨p, false, [], [⟨p, [.identifier p "index", .field p ["Parts"], .number p "0"]⟩]⟩
    let template : Template :=
      ⟨p, [.branch .range p
        ⟨p, false, [], [⟨p, [.identifier p "valueOrEmptySlice", .field p ["Items"]]⟩]⟩
        ⟨p, [.action p ⟨p, false, [], [⟨p, [.chain (.group picked) ["Name"]]⟩]⟩]⟩
        (some ⟨p, [.action p ⟨p, false, [], [⟨p, [.field p ["Empty"]]⟩]⟩]⟩)]⟩
    ∃ t, CallTree.ofTemplate template = .ok t ∧
      listUses template =
        [[.field "items", .element],
          [.field "items", .element, .field "parts", .element, .field "name"],
          [.field "empty"]] ∧
      ∀ path, (t.get? path).isSome = true ↔ path = [] ∨ ∃ use ∈ listUses template, path <+: use :=
  ⟨_, rfl, by decide, CallTree.isSome_get?_ofTemplate_iff rfl⟩

end Fieldwise
