import Fieldwise.CallTree.Basic
import Fieldwise.Template.Structure

/-!
# The call tree of a template

Each node of a template contributes a tree, and the tree of a template is the union of them
all: every branch counts, whichever of them a rendering would take. The body of a range
describes the elements of what it goes over, so its tree hangs below that place.

`depth` is the distance of the tree at hand from the root of the whole tree. A path that
would reach beyond `maxTreeDepth` is refused where it is written.
-/

set_option autoImplicit false

namespace Fieldwise

/-- The steps to the fields with the given names, one inside the other. -/
def fieldSteps (names : List String) : List Step :=
  names.map Step.named

/-- Refuses a node that would lie too deep. -/
def checkDepth (depth : Nat) (pos : Pos) : Except TemplateError Unit :=
  if depth ≤ maxTreeDepth then .ok () else .error ⟨pos, .fieldsTooDeep maxTreeDepth⟩

/-- The path of a field, refused where it would lie too deep. -/
def fieldPath (depth : Nat) (pos : Pos) (names : List String) :
    Except TemplateError (List Step) :=
  match checkDepth (depth + names.length) pos with
  | .error e => .error e
  | .ok () => .ok (fieldSteps names)

/-- The path of the elements of a field, refused where it would lie too deep. -/
def elementPath (depth : Nat) (pos : Pos) (names : List String) :
    Except TemplateError (List Step) :=
  match fieldPath depth pos names with
  | .error e => .error e
  | .ok path =>
    match checkDepth (depth + names.length + 1) pos with
    | .error e => .error e
    | .ok () => .ok (path ++ [.element])

namespace Pipeline

/-- The field of a call `index` with a field and a whole number, the one form of it that picks
an element whose place is known. With any other number of arguments after a field the call
cannot be followed and is refused; a call with another index is like any other call. -/
def indexedField? (pipe : Pipeline Operand) :
    Except TemplateError (Option (Pos × List String)) :=
  match pipe.declared, pipe.commands with
  | [], [command] =>
    match command.args with
    | .identifier pos name :: .field fieldPos names :: indices =>
      if name = indexFunction then
        match indices with
        | [.number _ text] =>
          .ok (if isWholeNumber text then some (fieldPos, names) else none)
        | [_] => .ok none
        | _ => .error ⟨pos, .indexArguments (indices.length + 1)⟩
      else .ok none
    | _ => .ok none
  | _, _ => .ok none

/-- The field that a range goes over: a field or the dot, also through a helper that hands its
argument back. The dot is the field without names. -/
def rangeField (pipe : Pipeline Operand) : Except TemplateError (List String) :=
  match pipe.commands with
  | [command] =>
    match command.args with
    | [arg] => target arg
    | [.identifier pos name, arg] =>
      if isPassthrough name then target arg else .error ⟨pos, .rangeCall name⟩
    | args => .error ⟨command.pos, .rangeArguments args.length⟩
  | commands => .error ⟨pipe.pos, .rangeCommands commands.length⟩
where
  /-- The names of the field that an operand is. -/
  target (arg : Operand) : Except TemplateError (List String) :=
    match arg with
    | .dot _ => .ok []
    | .field _ names => .ok names
    | _ => .error ⟨arg.pos, .rangeOperand arg.kindName⟩

end Pipeline

/-- The path from the dot to the value of an operand that a field is taken of: the dot, a
field, a picked element, or one of these in parentheses. -/
def Operand.path (depth : Nat) : Operand → Except TemplateError (List Step)
  | .dot _ => .ok []
  | .field pos names => fieldPath depth pos names
  | .chain base fields =>
    match base.path depth with
    | .error e => .error e
    | .ok path =>
      match fieldPath (depth + path.length) base.pos fields with
      | .error e => .error e
      | .ok steps => .ok (path ++ steps)
  | .group ⟨pos, assigns, declared, commands⟩ =>
    match Pipeline.indexedField? ⟨pos, assigns, declared, commands⟩ with
    | .error e => .error e
    | .ok (some (fieldPos, names)) => elementPath depth fieldPos names
    | .ok none =>
      match declared, commands with
      | [], [⟨_, [inner]⟩] => inner.path depth
      | _, _ => .error ⟨pos, .fieldOfCall⟩
  | .var pos name fields =>
    .error ⟨pos, .fieldOfOperand (Operand.var pos name fields).kindName⟩
  | .identifier pos name => .error ⟨pos, .fieldOfOperand (Operand.identifier pos name).kindName⟩
  | .string pos text => .error ⟨pos, .fieldOfOperand (Operand.string pos text).kindName⟩
  | .number pos text => .error ⟨pos, .fieldOfOperand (Operand.number pos text).kindName⟩
  | .bool pos value => .error ⟨pos, .fieldOfOperand (Operand.bool pos value).kindName⟩
  | .nil pos => .error ⟨pos, .fieldOfOperand (Operand.nil pos).kindName⟩
termination_by structural operand => operand

mutual

/-- The tree of the fields that an operand uses. -/
def Operand.tree (depth : Nat) : Operand → Except TemplateError CallTree
  | .field pos names => (fieldPath depth pos names).map .ofPath
  | .chain base fields => ((Operand.chain base fields).path depth).map .ofPath
  | .group pipe => pipelineTree depth pipe
  | _ => .ok .empty
termination_by structural operand => operand

/-- The tree of the fields that a pipeline uses. Variables only name values. -/
def pipelineTree (depth : Nat) : Pipeline Operand → Except TemplateError CallTree
  | ⟨pos, assigns, declared, commands⟩ =>
    match Pipeline.indexedField? ⟨pos, assigns, declared, commands⟩ with
    | .error e => .error e
    | .ok (some (fieldPos, names)) => (elementPath depth fieldPos names).map .ofPath
    | .ok none => commandsTree depth .empty commands
termination_by structural pipe => pipe

/-- The union of `t` with the trees of some commands. -/
def commandsTree (depth : Nat) (t : CallTree) :
    List (Command Operand) → Except TemplateError CallTree
  | [] => .ok t
  | command :: rest =>
    match commandTree depth t command with
    | .error e => .error e
    | .ok t => commandsTree depth t rest
termination_by structural commands => commands

/-- The union of `t` with the tree of a command. -/
def commandTree (depth : Nat) (t : CallTree) : Command Operand → Except TemplateError CallTree
  | ⟨_, args⟩ => operandsTree depth t args
termination_by structural command => command

/-- The union of `t` with the trees of some operands. -/
def operandsTree (depth : Nat) (t : CallTree) : List Operand → Except TemplateError CallTree
  | [] => .ok t
  | operand :: rest =>
    match operand.tree depth with
    | .error e => .error e
    | .ok s => operandsTree depth (t.merge s) rest
termination_by structural operands => operands

end

mutual

/-- The tree of the fields that a node uses. -/
def Node.tree (depth : Nat) : Node → Except TemplateError CallTree
  | .text _ _ => .ok .empty
  | .action _ pipe => pipelineTree depth pipe
  | .branch .conditional _ pipe body alternative =>
    match pipelineTree depth pipe with
    | .error e => .error e
    | .ok t =>
      match listTree depth t body with
      | .error e => .error e
      | .ok t => alternativeTree depth t alternative
  | .branch .range pos pipe body alternative =>
    match pipe.rangeField with
    | .error e => .error e
    | .ok names =>
      match elementPath depth pos names with
      | .error e => .error e
      | .ok path =>
        match listTree (depth + path.length) .empty body with
        | .error e => .error e
        | .ok t => alternativeTree depth (t.under path) alternative
  | .branch .focus pos pipe body alternative =>
    .error ⟨pos, .unrecognizedNode (Node.branch .focus pos pipe body alternative).kindName⟩
  | .template pos name pipe =>
    .error ⟨pos, .unrecognizedNode (Node.template pos name pipe).kindName⟩
  | .leave pos => .error ⟨pos, .unrecognizedNode (Node.leave pos).kindName⟩
  | .skip pos => .error ⟨pos, .unrecognizedNode (Node.skip pos).kindName⟩
termination_by structural node => node

/-- The union of `t` with the trees of the nodes of a list. -/
def listTree (depth : Nat) (t : CallTree) : NodeList Node → Except TemplateError CallTree
  | ⟨_, nodes⟩ => nodesTree depth t nodes
termination_by structural list => list

/-- The union of `t` with the trees of the nodes of a list that may be missing. -/
def alternativeTree (depth : Nat) (t : CallTree) :
    Option (NodeList Node) → Except TemplateError CallTree
  | none => .ok t
  | some list => listTree depth t list
termination_by structural list => list

/-- The union of `t` with the trees of some nodes. -/
def nodesTree (depth : Nat) (t : CallTree) : List Node → Except TemplateError CallTree
  | [] => .ok t
  | node :: rest =>
    match node.tree depth with
    | .error e => .error e
    | .ok s => nodesTree depth (t.merge s) rest
termination_by structural nodes => nodes

end

/-- The call tree of a template. -/
def CallTree.ofTemplate (template : Template) : Except TemplateError CallTree :=
  listTree 0 .empty template

/-- Reads a template and builds its call tree. -/
def CallTree.ofSource (source : String) : Except TemplateError CallTree :=
  match Template.ofSource source with
  | .error e => .error e
  | .ok template => CallTree.ofTemplate template

end Fieldwise
