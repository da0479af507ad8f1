import Fieldwise.Template.Expression

/-!
# Reading the structure of a template

The segments of a source are read one after another into an `Assembly`: the nodes finished so
far and, innermost first, the control structures still open. An action that opens a structure
puts it on top, `else` turns to its second list of nodes, and `end` closes it.

`else` followed by the keyword of the structure that it divides opens a structure of the same
kind as the only node of the second list; one `end` closes both.
-/

set_option autoImplicit false

namespace Fieldwise

/-- A control structure that is still open. The lists hold the latest node first. -/
structure OpenBranch where
  kind : BranchKind
  pos : Pos
  pipe : Pipeline Operand
  bodyPos : Pos
  body : List Node
  alternative : Option (Pos × List Node)
  /-- Opened by an `else`, so that it is closed together with the structure around it. -/
  chained : Bool
  outerScope : Scope

namespace OpenBranch

/-- The node of a structure that nothing more is added to. -/
def toNode (b : OpenBranch) : Node :=
  .branch b.kind b.pos b.pipe ⟨b.bodyPos, b.body.reverse⟩
    (b.alternative.map fun (pos, nodes) => ⟨pos, nodes.reverse⟩)

/-- The structure with a node added to the list that is being filled. -/
def add (node : Node) (b : OpenBranch) : OpenBranch :=
  match b.alternative with
  | none => { b with body := node :: b.body }
  | some (pos, nodes) => { b with alternative := some (pos, node :: nodes) }

end OpenBranch

/-- A template that is being read. -/
structure Assembly where
  stack : List OpenBranch
  nodes : List Node
  scope : Scope

namespace Assembly

/-- Nothing read yet. -/
def start : Assembly :=
  ⟨[], [], [rootVariable]⟩

/-- A structure is open whose body a loop runs through. -/
def inRange (a : Assembly) : Bool :=
  a.stack.any fun b => b.kind = .range

/-- Adds a node to the innermost open list. -/
def add (node : Node) (a : Assembly) : Assembly :=
  match a.stack with
  | [] => { a with nodes := node :: a.nodes }
  | b :: bs => { a with stack := b.add node :: bs }

/-- Closes `b` and the structures that it is chained to: the finished node, the scope outside
it, and the structures still open. -/
def unwind : OpenBranch → List OpenBranch → Node × Scope × List OpenBranch
  | b, [] => (b.toNode, b.outerScope, [])
  | b, outer :: rest =>
    if b.chained then unwind { outer with alternative := some (b.pos, [b.toNode]) } rest
    else (b.toNode, b.outerScope, outer :: rest)

/-- Closes the innermost structure. -/
def closeBranch (pos : Pos) (a : Assembly) : Except TemplateError Assembly :=
  match a.stack with
  | [] => .error ⟨pos, .strayEnd⟩
  | b :: bs =>
    let (node, scope, stack) := unwind b bs
    .ok (add node { a with stack, scope })

/-- Opens a structure with the pipeline in `tokens`. -/
def openBranch (kind : BranchKind) (chained : Bool) (pos next : Pos) (close : Token)
    (tokens : List Token) (a : Assembly) : Except TemplateError Assembly :=
  if a.stack.length < maxNesting then
    match readPipeline close (.opening kind) (a.stack.length + 1) ⟨tokens, a.scope⟩ with
    | .error e => .error e
    | .ok (pipe, scope) =>
      .ok { a with
        stack := ⟨kind, pos, pipe, next, [], none, chained, a.scope⟩ :: a.stack
        scope }
  else .error ⟨pos, .structuresTooDeep⟩

/-- Refuses tokens behind a keyword that stands alone. -/
def expectClose (k : Keyword) : List Token → Except TemplateError Unit
  | [] => .ok ()
  | t :: _ => .error ⟨t.pos, .unexpectedToken t.kind (.word k)⟩

/-- The tokens behind the keyword by which an `else` opens a further structure. Ranges do not
go on in this way. -/
def chainTokens? (kind : BranchKind) (tokens : List Token) : Option (List Token) :=
  match tokens with
  | ⟨.keyword k, _, _⟩ :: rest =>
    if k = kind.keyword && kind ≠ .range then some rest else none
  | _ => none

/-- Turns to the second list of the innermost structure. -/
def divide (pos next : Pos) (close : Token) (tokens : List Token) (a : Assembly) :
    Except TemplateError Assembly :=
  match a.stack with
  | [] => .error ⟨pos, .strayElse⟩
  | b :: bs =>
    if b.alternative.isSome then .error ⟨pos, .secondElse b.kind⟩
    else
      match chainTokens? b.kind tokens with
      | some rest => openBranch b.kind true pos next close rest a
      | none =>
        match expectClose .elseWord tokens with
        | .error e => .error e
        | .ok () => .ok { a with stack := { b with alternative := some (next, []) } :: bs }

/-- Reads the clause that stands for another template. -/
def template (pos : Pos) (close : Token) (tokens : List Token) (a : Assembly) :
    Except TemplateError Assembly :=
  match tokens with
  | [⟨.string name, _, _⟩] => .ok (a.add (.template pos name none))
  | ⟨.string name, _, _⟩ :: rest =>
    match readPipeline close .templateClause a.stack.length ⟨rest, a.scope⟩ with
    | .error e => .error e
    | .ok (pipe, scope) => .ok { a.add (.template pos name (some pipe)) with scope }
  | _ => (⟨tokens, a.scope⟩ : Cursor).unexpected close .templateClause

/-- Reads a keyword that leaves or skips a turn of a loop. -/
def jump (k : Keyword) (node : Pos → Node) (pos : Pos) (tokens : List Token) (a : Assembly) :
    Except TemplateError Assembly :=
  if a.inRange then (expectClose k tokens).map fun () => a.add (node pos)
  else .error ⟨pos, .notInRange k⟩

/-- Reads an action; `next` is where the segment after it starts. -/
def action (act : Action) (next : Pos) (a : Assembly) : Except TemplateError Assembly :=
  match act.tokens with
  | ⟨.keyword k, _, _⟩ :: rest =>
    match k with
    | .ifWord => a.openBranch .conditional false act.opened next act.close rest
    | .rangeWord => a.openBranch .range false act.opened next act.close rest
    | .withWord => a.openBranch .focus false act.opened next act.close rest
    | .elseWord => a.divide act.opened next act.close rest
    | .endWord =>
      match expectClose .endWord rest with
      | .error e => .error e
      | .ok () => a.closeBranch act.opened
    | .templateWord => a.template act.opened act.close rest
    | .breakWord => a.jump .breakWord .leave act.opened rest
    | .continueWord => a.jump .continueWord .skip act.opened rest
    | .defineWord => .error ⟨act.opened, .unsupportedKeyword .defineWord⟩
    | .blockWord => .error ⟨act.opened, .unsupportedKeyword .blockWord⟩
  | tokens =>
    match readPipeline act.close .command a.stack.length ⟨tokens, a.scope⟩ with
    | .error e => .error e
    | .ok (pipe, scope) => .ok { a.add (.action act.opened pipe) with scope }

/-- Reads one segment. -/
def segment (s : Segment) (next : Pos) (a : Assembly) : Except TemplateError Assembly :=
  match s with
  | .text pos s => .ok (a.add (.text pos s))
  | .action act => a.action act next

/-- Where the first of some segments starts, or else the end of the source. -/
def startOf (finish : Pos) (segments : List Segment) : Pos :=
  (segments.head?.map Segment.pos).getD finish

/-- Reads segments in order. -/
def run (finish : Pos) (a : Assembly) : List Segment → Except TemplateError Assembly
  | [] => .ok a
  | s :: rest =>
    match a.segment s (startOf finish rest) with
    | .error e => .error e
    | .ok a => run finish a rest

/-- The nodes read, once no structure is open. -/
def finished (finish : Pos) (a : Assembly) : Except TemplateError (List Node) :=
  match a.stack with
  | [] => .ok a.nodes.reverse
  | b :: _ => .error ⟨finish, .missingEnd b.kind b.pos⟩

end Assembly

/-- The template that the segments of a source make up. -/
def Template.ofScan (scan : Scan) : Except TemplateError Template :=
  match Assembly.run scan.finish .start scan.segments with
  | .error e => .error e
  | .ok a => (a.finished scan.finish).map fun nodes =>
    ⟨Assembly.startOf scan.finish scan.segments, nodes⟩

/-- Reads a template. -/
def Template.ofSource (source : String) : Except TemplateError Template :=
  match Scan.ofSource source with
  | .error e => .error e
  | .ok scan => Template.ofScan scan

end Fieldwise
