import Fieldwise.Proofs.Template.Assembly
import Fieldwise.Proofs.Template.Places

/-!
# Places in a template

Reading a template makes up no places: those in its nodes, and those that its refusals point to, are
places of the segments that it is read from.

* `Operand.Placed`, `PipelinePlaced`, `Node.Placed`, `ListPlaced` : every place in a part of a
  template has a property.
* `pipelineFrom_points`, `readPipeline_points` : pipelines.
* `Assembly.action_points`, `Assembly.run_points` : one action, and all segments in a row.
* `Template.ofScan_points`, `Template.ofSource_points` : whole templates.
-/

set_option autoImplicit false

namespace Fieldwise

/-! ## Placed syntax -/

mutual

/-- Every place in an operand has the property `P`. -/
def Operand.Placed (P : Pos → Prop) : Operand → Prop
  | .chain base _ => base.Placed P
  | .group pipe => PipelinePlaced P pipe
  | .dot pos | .field pos _ | .var pos _ _ | .identifier pos _ | .string pos _ | .number pos _
  | .bool pos _ | .nil pos => P pos
termination_by structural operand => operand

/-- Every place in a pipeline has the property `P`. -/
def PipelinePlaced (P : Pos → Prop) : Pipeline Operand → Prop
  | ⟨pos, _, declared, commands⟩ =>
    P pos ∧ (∀ v ∈ declared, P v.pos) ∧ CommandsPlaced P commands
termination_by structural pipe => pipe

/-- Every place in some commands has the property `P`. -/
def CommandsPlaced (P : Pos → Prop) : List (Command Operand) → Prop
  | [] => True
  | command :: rest => CommandPlaced P command ∧ CommandsPlaced P rest
termination_by structural commands => commands

/-- Every place in a command has the property `P`. -/
def CommandPlaced (P : Pos → Prop) : Command Operand → Prop
  | ⟨pos, args⟩ => P pos ∧ OperandsPlaced P args
termination_by structural command => command

/-- Every place in some operands has the property `P`. -/
def OperandsPlaced (P : Pos → Prop) : List Operand → Prop
  | [] => True
  | operand :: rest => operand.Placed P ∧ OperandsPlaced P rest
termination_by structural operands => operands

end

mutual

/-- Every place in a node has the property `P`. -/
def Node.Placed (P : Pos → Prop) : Node → Prop
  | .text pos _ | .leave pos | .skip pos => P pos
  | .action pos pipe => P pos ∧ PipelinePlaced P pipe
  | .branch _ pos pipe body alternative =>
    P pos ∧ PipelinePlaced P pipe ∧ ListPlaced P body ∧ AlternativePlaced P alternative
  | .template pos _ pipe => P pos ∧ ∀ p ∈ pipe, PipelinePlaced P p
termination_by structural node => node

/-- Every place in a list of nodes has the property `P`. -/
def ListPlaced (P : Pos → Prop) : NodeList Node → Prop
  | ⟨pos, nodes⟩ => P pos ∧ NodesPlaced P nodes
termination_by structural list => list

/-- Every place in a list of nodes that may be missing has the property `P`. -/
def AlternativePlaced (P : Pos → Prop) : Option (NodeList Node) → Prop
  | none => True
  | some list => ListPlaced P list
termination_by structural list => list

/-- Every place in some nodes has the property `P`. -/
def NodesPlaced (P : Pos → Prop) : List Node → Prop
  | [] => True
  | node :: rest => node.Placed P ∧ NodesPlaced P rest
termination_by structural nodes => nodes

end

variable {P : Pos → Prop}

theorem PipelinePlaced.pos {pipe : Pipeline Operand} (h : PipelinePlaced P pipe) : P pipe.pos := by
  cases pipe
  exact h.1

theorem Operand.placed_pos : ∀ operand : Operand, operand.Placed P → P operand.pos
  | .chain base _, h => placed_pos base h
  | .group _, h => PipelinePlaced.pos h
  | .dot _, h | .field _ _, h | .var _ _ _, h | .identifier _ _, h | .string _ _, h
  | .number _ _, h | .bool _ _, h | .nil _, h => h

theorem nodesPlaced_iff : ∀ {nodes : List Node},
    NodesPlaced P nodes ↔ ∀ node ∈ nodes, node.Placed P
  | [] => by simp [NodesPlaced]
  | node :: rest => by rw [NodesPlaced, nodesPlaced_iff, List.forall_mem_cons]

/-! ## Declarations and operands -/

variable {close : Token}

/-- Every token at hand lies at a place with the property `P`. -/
def Cursor.Placed (P : Pos → Prop) (c : Cursor) : Prop :=
  ∀ t ∈ c.tokens, P t.pos

namespace Cursor.Placed

variable {c : Cursor}

theorem peek (h : c.Placed P) (hclose : P close.pos) : P (c.peek close).pos := by
  obtain ⟨_ | ⟨t, rest⟩, Γ⟩ := c
  · exact hclose
  · exact h t List.mem_cons_self

theorem next (h : c.Placed P) : c.next.Placed P :=
  fun t ht => h t (List.mem_of_mem_tail ht)

theorem unexpected {α : Type} {Q : α → Prop} (h : c.Placed P) (hclose : P close.pos)
    (context : Context) : Points P Q (c.unexpected close context) :=
  h.peek hclose

end Cursor.Placed

theorem checkVariable_points {c : Cursor} {pos : Pos} (hpos : P pos) (name : String) :
    Points P (fun _ => True) (c.checkVariable name pos) := by
  rw [Cursor.checkVariable]
  split
  · trivial
  · exact hpos

theorem bindVariables_points (assigns : Bool) : ∀ {declared : List DeclaredVariable} {c : Cursor},
    (∀ v ∈ declared, P v.pos) → c.Placed P →
    Points P (Cursor.Placed P) (bindVariables assigns declared c)
  | [], _, _, hc => hc
  | v :: vs, c, hdeclared, hc => by
    obtain ⟨hv, hvs⟩ := List.forall_mem_cons.mp hdeclared
    rw [bindVariables]
    split
    · have hcheck := checkVariable_points (c := c) hv v.name
      split
      · next herror => exact hcheck.of_error herror
      · exact bindVariables_points assigns hvs hc
    · exact bindVariables_points assigns hvs hc

theorem readDeclared_points (hclose : P close.pos) (context : Context) {c : Cursor}
    (hc : c.Placed P) :
    Points P (fun read => (∀ v ∈ read.2.1, P v.pos) ∧ read.2.2.Placed P)
      (readDeclared close context c) := by
  have hbound : ∀ (assigns : Bool) (declared : List DeclaredVariable) (rest : Cursor),
      (∀ v ∈ declared, P v.pos) → rest.Placed P →
      Points P (fun read => (∀ v ∈ read.2.1, P v.pos) ∧ read.2.2.Placed P)
        ((bindVariables assigns declared rest).map (assigns, declared, ·)) :=
    fun assigns declared rest hdeclared hrest =>
      (bindVariables_points assigns hdeclared hrest).map fun _ hc => ⟨hdeclared, hc⟩
  obtain ⟨tokens, Γ⟩ := c
  -- behind the first variable and its mark the rest is placed as before
  have hhead : ∀ {first mark : Token} {rest : List Token}, tokens = first :: mark :: rest →
      P first.pos ∧ (⟨rest, Γ⟩ : Cursor).Placed P := by
    rintro first mark rest rfl
    exact ⟨hc first List.mem_cons_self, Cursor.Placed.next (Cursor.Placed.next hc)⟩
  unfold readDeclared
  split
  · next htokens =>
    obtain ⟨hpos, hrest⟩ := hhead htokens
    exact hbound _ _ _ (List.forall_mem_singleton.mpr hpos) hrest
  · next htokens =>
    obtain ⟨hpos, hrest⟩ := hhead htokens
    exact hbound _ _ _ (List.forall_mem_singleton.mpr hpos) hrest
  · next htokens =>
    obtain ⟨hpos, hrest⟩ := hhead htokens
    dsimp only
    split
    · split
      · split
        · refine hbound _ _ _ ?_ hrest.next.next
          exact List.forall_mem_cons.mpr
            ⟨hpos, List.forall_mem_singleton.mpr (hrest.peek hclose)⟩
        · exact hpos
      · exact hrest.next.unexpected hclose context
    · exact hrest.unexpected hclose context
  · exact ⟨nofun, hc⟩

theorem Cursor.Placed.takeFields {c : Cursor} (h : c.Placed P) :
    (⟨(takeFields c.tokens).2, c.scope⟩ : Cursor).Placed P := by
  obtain ⟨fs, htokens, -⟩ := takeFields_sound c.tokens
  intro t ht
  refine h t ?_
  rw [htokens]
  exact List.mem_append_right _ ht

theorem attachFields_points {term : Operand} (hterm : term.Placed P) (fields : List String) :
    Points P (Operand.Placed P) (attachFields term fields) := by
  unfold attachFields
  split
  · exact hterm
  · cases term <;> exact hterm

theorem operand?_points {t : Token} (ht : P t.pos) (c : Cursor) :
    Points P (fun operand => ∀ a ∈ operand, a.Placed P) (t.operand? c) := by
  have hsome : ∀ {a : Operand}, a.Placed P → ∀ b ∈ some a, b.Placed P :=
    fun ha b hb => Option.some.inj hb ▸ ha
  obtain ⟨kind, pos, space⟩ := t
  cases kind with
  | identifier name =>
    simp only [Token.operand?]
    split
    · exact hsome ht
    · exact ht
  | var name => exact (checkVariable_points ht name).map fun _ _ => hsome ht
  | dot | nil | bool | field | string | number => exact hsome ht
  | _ => rintro _ ⟨⟩

/-! ## Pipelines -/

mutual

theorem pipelineFrom_points (hclose : P close.pos) (ending : Ending) (context : Context) :
    ∀ (fuel depth : Nat) {c : Cursor}, c.Placed P →
    Points P (fun read => PipelinePlaced P read.1 ∧ read.2.Placed P)
      (pipelineFrom close ending context depth fuel c)
  | 0, _, _, hc => hc.peek hclose
  | fuel + 1, depth, c, hc => by
    rw [pipelineFrom]
    have hread := readDeclared_points hclose context hc
    split
    · next herror => exact hread.of_error herror
    next assigns declared inner hok =>
    obtain ⟨hdeclared, hinner⟩ := hread.of_ok hok
    split
    · exact hinner.peek hclose
    have hcommands := commandsFrom_points hclose ending fuel depth hinner
    split
    · next herror => exact hcommands.of_error herror
    · next commands rest hok =>
      obtain ⟨hplaced, hrest⟩ := hcommands.of_ok hok
      exact ⟨⟨hc.peek hclose, hdeclared, hplaced⟩, hrest⟩
termination_by structural fuel => fuel

theorem commandsFrom_points (hclose : P close.pos) (ending : Ending) :
    ∀ (fuel depth : Nat) {c : Cursor}, c.Placed P →
    Points P (fun read => CommandsPlaced P read.1 ∧ read.2.Placed P)
      (commandsFrom close ending depth fuel c)
  | 0, _, _, hc => hc.peek hclose
  | fuel + 1, depth, c, hc => by
    rw [commandsFrom]
    have hargs := operandsFrom_points hclose ending fuel depth hc
    split
    · next herror => exact hargs.of_error herror
    next args rest hok =>
    obtain ⟨hplaced, hrest⟩ := hargs.of_ok hok
    have hcommand : CommandPlaced P ⟨(c.peek close).pos, args⟩ := ⟨hc.peek hclose, hplaced⟩
    dsimp only
    split
    · have hcommands := commandsFrom_points hclose ending fuel depth hrest.next
      split
      · next herror => exact hcommands.of_error herror
      · next commands rest hok =>
        obtain ⟨hmore, hrest⟩ := hcommands.of_ok hok
        exact ⟨⟨hcommand, hmore⟩, hrest⟩
    · exact ⟨⟨hcommand, trivial⟩, hrest.next⟩
termination_by structural fuel => fuel

theorem operandsFrom_points (hclose : P close.pos) (ending : Ending) :
    ∀ (fuel depth : Nat) {c : Cursor}, c.Placed P →
    Points P (fun read => OperandsPlaced P read.1 ∧ read.2.Placed P)
      (operandsFrom close ending depth fuel c)
  | 0, _, _, hc => hc.peek hclose
  | fuel + 1, depth, c, hc => by
    rw [operandsFrom]
    have hterm := termFrom_points hclose fuel depth hc
    split
    · next herror => exact hterm.of_error herror
    · exact hc.unexpected hclose .operand
    next term rest hok =>
    obtain ⟨hplaced, hrest⟩ := hterm.of_ok hok
    have hattach := attachFields_points (hplaced term rfl) (takeFields rest.tokens).1
    split
    · next herror => exact hattach.of_error herror
    next operand hok =>
    have hoperand := hattach.of_ok hok
    have hafter := hrest.takeFields
    dsimp only
    split
    · exact ⟨⟨hoperand, trivial⟩, hafter⟩
    split
    · have hoperands := operandsFrom_points hclose ending fuel depth hafter
      split
      · next herror => exact hoperands.of_error herror
      · next operands rest hok =>
        obtain ⟨hmore, hrest⟩ := hoperands.of_ok hok
        exact ⟨⟨hoperand, hmore⟩, hrest⟩
    · exact hafter.unexpected hclose .operand
termination_by structural fuel => fuel

theorem termFrom_points (hclose : P close.pos) :
    ∀ (fuel depth : Nat) {c : Cursor}, c.Placed P →
    Points P (fun read => (∀ a ∈ read.1, a.Placed P) ∧ read.2.Placed P)
      (termFrom close depth fuel c)
  | 0, _, _, hc => hc.peek hclose
  | fuel + 1, depth, c, hc => by
    rw [termFrom]
    have hpeek := hc.peek hclose
    split
    · split
      · have hpipe :=
          pipelineFrom_points hclose .parenthesis .parentheses fuel (depth + 1) hc.next
        split
        · next herror => exact hpipe.of_error herror
        · next pipe rest hok =>
          obtain ⟨hplaced, hrest⟩ := hpipe.of_ok hok
          exact ⟨fun a ha => Option.some.inj ha ▸ hplaced, hrest⟩
      · exact hpeek
    · have hoperand := operand?_points hpeek c
      split
      · next herror => exact hoperand.of_error herror
      · exact ⟨nofun, hc⟩
      · next operand hok => exact ⟨hoperand.of_ok hok, hc.next⟩
termination_by structural fuel => fuel

end

/-- **Reading a pipeline makes up no places.** -/
theorem readPipeline_points (hclose : P close.pos) (context : Context) (depth : Nat) {c : Cursor}
    (hc : c.Placed P) :
    Points P (fun read => PipelinePlaced P read.1) (readPipeline close context depth c) :=
  (pipelineFrom_points hclose .delimiter context _ depth hc).map fun _ h => h.1

/-! ## Structures -/

/-- Every place in an open structure has the property `P`. -/
structure OpenBranch.Placed (P : Pos → Prop) (b : OpenBranch) : Prop where
  pos : P b.pos
  pipe : PipelinePlaced P b.pipe
  bodyPos : P b.bodyPos
  body : ∀ node ∈ b.body, node.Placed P
  alternative : ∀ tail ∈ b.alternative, P tail.1 ∧ ∀ node ∈ tail.2, node.Placed P

/-- Every place in what has been read has the property `P`. -/
structure Assembly.Placed (P : Pos → Prop) (a : Assembly) : Prop where
  stack : ∀ b ∈ a.stack, b.Placed P
  nodes : ∀ node ∈ a.nodes, node.Placed P

namespace OpenBranch.Placed

variable {b : OpenBranch} {node : Node}

theorem toNode (h : b.Placed P) : b.toNode.Placed P := by
  have hbody : ListPlaced P ⟨b.bodyPos, b.body.reverse⟩ :=
    ⟨h.bodyPos, nodesPlaced_iff.mpr fun node hnode => h.body node (List.mem_reverse.mp hnode)⟩
  refine ⟨h.pos, h.pipe, hbody, ?_⟩
  cases htail : b.alternative with
  | none => trivial
  | some tail =>
    obtain ⟨hpos, hnodes⟩ := h.alternative tail htail
    exact ⟨hpos, nodesPlaced_iff.mpr fun node hnode => hnodes node (List.mem_reverse.mp hnode)⟩

theorem add (h : b.Placed P) (hnode : node.Placed P) : (b.add node).Placed P := by
  rw [OpenBranch.add]
  split
  · exact { h with body := List.forall_mem_cons.mpr ⟨hnode, h.body⟩ }
  · next pos nodes htail =>
    obtain ⟨hpos, hnodes⟩ := h.alternative _ htail
    refine { h with alternative := fun tail ht => ?_ }
    cases ht
    exact ⟨hpos, List.forall_mem_cons.mpr ⟨hnode, hnodes⟩⟩

end OpenBranch.Placed

namespace Assembly

variable {a : Assembly} {pos next : Pos} {tokens : List Token}

theorem placed_start : start.Placed P :=
  ⟨nofun, nofun⟩

theorem Placed.add (h : a.Placed P) {node : Node} (hnode : node.Placed P) :
    (a.add node).Placed P := by
  obtain ⟨_ | ⟨b, bs⟩, nodes, Γ⟩ := a
  · exact ⟨nofun, List.forall_mem_cons.mpr ⟨hnode, h.nodes⟩⟩
  · obtain ⟨hb, hbs⟩ := List.forall_mem_cons.mp h.stack
    exact ⟨List.forall_mem_cons.mpr ⟨hb.add hnode, hbs⟩, h.nodes⟩

theorem unwind_placed : ∀ (bs : List OpenBranch) {b : OpenBranch}, b.Placed P →
    (∀ outer ∈ bs, outer.Placed P) →
    (unwind b bs).1.Placed P ∧ ∀ outer ∈ (unwind b bs).2.2, outer.Placed P
  | [], _, hb, _ => ⟨hb.toNode, nofun⟩
  | outer :: rest, b, hb, hbs => by
    obtain ⟨houter, hrest⟩ := List.forall_mem_cons.mp hbs
    rw [unwind]
    split
    · -- the finished structure is the only node of the list that it is chained to
      refine unwind_placed rest { houter with alternative := fun tail ht => ?_ } hrest
      cases ht
      exact ⟨hb.pos, List.forall_mem_singleton.mpr hb.toNode⟩
    · exact ⟨hb.toNode, hbs⟩

theorem closeBranch_points (hpos : P pos) (ha : a.Placed P) :
    Points P (Assembly.Placed P) (a.closeBranch pos) := by
  obtain ⟨_ | ⟨b, bs⟩, nodes, Γ⟩ := a
  · exact hpos
  · obtain ⟨hb, hbs⟩ := List.forall_mem_cons.mp ha.stack
    obtain ⟨hnode, hstack⟩ := unwind_placed bs hb hbs
    exact Placed.add (a := ⟨(unwind b bs).2.2, nodes, (unwind b bs).2.1⟩) ⟨hstack, ha.nodes⟩ hnode

theorem openBranch_points (hpos : P pos) (hnext : P next) (hclose : P close.pos)
    (htokens : ∀ t ∈ tokens, P t.pos) (ha : a.Placed P) (kind : BranchKind) (chained : Bool) :
    Points P (Assembly.Placed P) (a.openBranch kind chained pos next close tokens) := by
  rw [openBranch]
  split
  · have hpipe := readPipeline_points hclose (.opening kind) (a.stack.length + 1)
      (c := ⟨tokens, a.scope⟩) htokens
    split
    · next herror => exact hpipe.of_error herror
    · next pipe scope hok =>
      have hb : OpenBranch.Placed P ⟨kind, pos, pipe, next, [], none, chained, a.scope⟩ :=
        ⟨hpos, hpipe.of_ok hok, hnext, nofun, nofun⟩
      exact ⟨List.forall_mem_cons.mpr ⟨hb, ha.stack⟩, ha.nodes⟩
  · exact hpos

theorem expectClose_points (htokens : ∀ t ∈ tokens, P t.pos) (k : Keyword) :
    Points P (fun _ => True) (expectClose k tokens) := by
  cases tokens with
  | nil => trivial
  | cons t rest => exact htokens t List.mem_cons_self

theorem divide_points (hpos : P pos) (hnext : P next) (hclose : P close.pos)
    (htokens : ∀ t ∈ tokens, P t.pos) (ha : a.Placed P) :
    Points P (Assembly.Placed P) (a.divide pos next close tokens) := by
  rw [divide]
  split
  · exact hpos
  next b bs hstack =>
  split
  · exact hpos
  split
  · next rest hchain =>
    obtain ⟨-, again, rfl, -⟩ := chainTokens?_eq_some_iff.mp hchain
    exact openBranch_points hpos hnext hclose (List.forall_mem_cons.mp htokens).2 ha _ _
  · have hexpect := expectClose_points htokens .elseWord
    split
    · next herror => exact hexpect.of_error herror
    · have hplaced := ha.stack
      rw [hstack] at hplaced
      obtain ⟨hb, hbs⟩ := List.forall_mem_cons.mp hplaced
      have hopened : { b with alternative := some (next, []) }.Placed P :=
        { hb with alternative := by rintro tail ⟨⟩; exact ⟨hnext, nofun⟩ }
      exact ⟨List.forall_mem_cons.mpr ⟨hopened, hbs⟩, ha.nodes⟩

theorem template_points (hpos : P pos) (hclose : P close.pos) (htokens : ∀ t ∈ tokens, P t.pos)
    (ha : a.Placed P) : Points P (Assembly.Placed P) (a.template pos close tokens) := by
  rw [template.eq_def]
  split
  · exact ha.add ⟨hpos, nofun⟩
  · next name _ _ rest _ =>
    have hpipe := readPipeline_points hclose .templateClause a.stack.length
      (c := ⟨rest, a.scope⟩) (List.forall_mem_cons.mp htokens).2
    split
    · next herror => exact hpipe.of_error herror
    · next pipe scope hok =>
      have hnode : ∀ p ∈ some pipe, PipelinePlaced P p :=
        fun p hp => Option.some.inj hp ▸ hpipe.of_ok hok
      have hadd : (a.add (.template pos name (some pipe))).Placed P := ha.add ⟨hpos, hnode⟩
      exact ⟨hadd.stack, hadd.nodes⟩
  · exact Cursor.Placed.unexpected (c := ⟨tokens, a.scope⟩) htokens hclose .templateClause

theorem jump_points (hpos : P pos) (htokens : ∀ t ∈ tokens, P t.pos) (ha : a.Placed P)
    (k : Keyword) {node : Pos → Node} (hnode : (node pos).Placed P) :
    Points P (Assembly.Placed P) (a.jump k node pos tokens) := by
  rw [jump]
  split
  · exact (expectClose_points htokens k).map fun _ _ => ha.add hnode
  · exact hpos

/-- **Reading an action makes up no places.** -/
theorem action_points {act : Action} (hact : act.Placed P) (hnext : P next) (ha : a.Placed P) :
    Points P (Assembly.Placed P) (a.action act next) := by
  obtain ⟨opened, tokens, close⟩ := act
  obtain ⟨hopened, htokens, hclose⟩ := hact
  rw [action.eq_def]
  dsimp only
  split
  · next k _ _ rest =>
    have hrest : ∀ t ∈ rest, P t.pos := (List.forall_mem_cons.mp htokens).2
    cases k with
    | ifWord | rangeWord | withWord =>
      exact openBranch_points hopened hnext hclose hrest ha _ _
    | elseWord => exact divide_points hopened hnext hclose hrest ha
    | endWord =>
      have hexpect := expectClose_points hrest .endWord
      dsimp only
      split
      · next herror => exact hexpect.of_error herror
      · exact closeBranch_points hopened ha
    | templateWord => exact template_points hopened hclose hrest ha
    | breakWord => exact jump_points hopened hrest ha _ hopened
    | continueWord => exact jump_points hopened hrest ha _ hopened
    | defineWord | blockWord => exact hopened
  · have hpipe := readPipeline_points hclose .command a.stack.length
      (c := ⟨tokens, a.scope⟩) htokens
    split
    · next herror => exact hpipe.of_error herror
    · next pipe scope hok =>
      have hadd : (a.add (.action opened pipe)).Placed P := ha.add ⟨hopened, hpipe.of_ok hok⟩
      exact ⟨hadd.stack, hadd.nodes⟩

theorem segment_points {s : Segment} (hs : s.Placed P) (hnext : P next) (ha : a.Placed P) :
    Points P (Assembly.Placed P) (a.segment s next) := by
  cases s with
  | text pos s => exact ha.add hs
  | action act => exact action_points hs hnext ha

theorem placed_startOf {finish : Pos} (hfinish : P finish) {segments : List Segment}
    (hsegments : ∀ s ∈ segments, s.Placed P) : P (startOf finish segments) := by
  cases segments with
  | nil => exact hfinish
  | cons s rest => exact (hsegments s List.mem_cons_self).pos

/-- **Reading segments in a row makes up no places.** -/
theorem run_points {finish : Pos} (hfinish : P finish) : ∀ {segments : List Segment}
    {a : Assembly}, (∀ s ∈ segments, s.Placed P) → a.Placed P →
    Points P (Assembly.Placed P) (run finish a segments)
  | [], _, _, ha => ha
  | s :: rest, a, hsegments, ha => by
    obtain ⟨hs, hrest⟩ := List.forall_mem_cons.mp hsegments
    rw [run]
    have hsegment := segment_points hs (placed_startOf hfinish hrest) ha
    split
    · next herror => exact hsegment.of_error herror
    · next hok => exact run_points hfinish hrest (hsegment.of_ok hok)

theorem finished_points {finish : Pos} (hfinish : P finish) (ha : a.Placed P) :
    Points P (NodesPlaced P) (a.finished finish) := by
  rw [finished]
  split
  · exact nodesPlaced_iff.mpr fun node hnode => ha.nodes node (List.mem_reverse.mp hnode)
  · exact hfinish

end Assembly

/-! ## Whole templates -/

theorem Template.ofScan_points {scan : Scan} (h : scan.Placed P) :
    Points P (ListPlaced P) (Template.ofScan scan) := by
  rw [Template.ofScan]
  have hrun := Assembly.run_points h.finish h.segments Assembly.placed_start
  split
  · next herror => exact hrun.of_error herror
  · next a hok =>
    exact (Assembly.finished_points h.finish (hrun.of_ok hok)).map fun _ hnodes =>
      ⟨Assembly.placed_startOf h.finish h.segments, hnodes⟩

/-- **Every place in a template is a boundary in its source**, and so is the place that a refusal
points to. -/
theorem Template.ofSource_points (source : String) :
    Points (IsBoundary source.toList) (ListPlaced (IsBoundary source.toList))
      (Template.ofSource source) := by
  rw [Template.ofSource]
  have hscan := Scan.ofSource_points source
  split
  · next herror => exact hscan.of_error herror
  · next hok => exact Template.ofScan_points (hscan.of_ok hok)

end Fieldwise
