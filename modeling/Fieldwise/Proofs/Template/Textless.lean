import Fieldwise.Proofs.Template.Concatenation
import Fieldwise.Proofs.Template.Erasure
import Mathlib.Data.List.Forall2

/-!
# Templates without text and places

The text of a template and the places of its parts decide nothing about its structure. A template
is read from its actions, one after another, and of each action from the core of its tokens.

* `Node.textless` : the node without the text inside it, at any depth.
* `Node.core`, `Assembly.core` : the syntax read, without text and places.
* `Action.core`, `Scan.core` : the actions of a source as far as reading depends on them.
* `Assembly.action_core` : one action.
* `Assembly.run_core` : all segments. A text leaves the core of an assembly as it is.
* `Template.ofScan_core` : the core of a source is read as the core of its template, or refused with
  the same verdict.
* `Scan.core_eq_of_tokens` : the tokens that are no text, up to places and the space before right
  delimiters, determine the core of a source.
-/

set_option autoImplicit false

namespace Fieldwise

/-! ## Syntax without text -/

mutual

/-- The node without the text inside it. -/
def Node.textless : Node → Node
  | .branch kind pos pipe body alternative =>
    .branch kind pos pipe (listTextless body) (alternativeTextless alternative)
  | .text pos s => .text pos s
  | .action pos pipe => .action pos pipe
  | .template pos name pipe => .template pos name pipe
  | .leave pos => .leave pos
  | .skip pos => .skip pos
termination_by structural node => node

/-- The list without text. -/
def listTextless : NodeList Node → NodeList Node
  | ⟨pos, nodes⟩ => ⟨pos, nodesTextless nodes⟩
termination_by structural list => list

/-- The list without text, if there is one. -/
def alternativeTextless : Option (NodeList Node) → Option (NodeList Node)
  | none => none
  | some list => some (listTextless list)
termination_by structural list => list

/-- The nodes that are no text, without the text inside them. -/
def nodesTextless : List Node → List Node
  | [] => []
  | node :: rest => if node.isText then nodesTextless rest else node.textless :: nodesTextless rest
termination_by structural nodes => nodes

end

theorem nodesTextless_eq_map (nodes : List Node) :
    nodesTextless nodes = (withoutText nodes).map Node.textless := by
  induction nodes with
  | nil => rfl
  | cons node rest ih =>
    rw [nodesTextless, withoutText, List.filter_cons]
    cases node.isText with
    | true => exact ih
    | false => exact congrArg (node.textless :: ·) ih

theorem bareNodes_eq_map (nodes : List Node) : bareNodes nodes = nodes.map Node.bare := by
  induction nodes with
  | nil => rfl
  | cons node rest ih => rw [bareNodes, ih, List.map_cons]

/-- The node without the text inside it, and without places. -/
def Node.core (node : Node) : Node :=
  node.textless.bare

/-- The nodes that are no text, without the text inside them and without places. -/
def coreNodes (nodes : List Node) : List Node :=
  (withoutText nodes).map Node.core

theorem bareNodes_nodesTextless (nodes : List Node) :
    bareNodes (nodesTextless nodes) = coreNodes nodes := by
  rw [bareNodes_eq_map, nodesTextless_eq_map, List.map_map]
  rfl

theorem coreNodes_reverse (nodes : List Node) :
    coreNodes nodes.reverse = (coreNodes nodes).reverse := by
  rw [coreNodes, withoutText, List.filter_reverse, List.map_reverse]
  rfl

theorem coreNodes_cons_of_isText {node : Node} (h : node.isText = true) (nodes : List Node) :
    coreNodes (node :: nodes) = coreNodes nodes := by
  rw [coreNodes, withoutText_cons_of_isText h]
  rfl

theorem coreNodes_cons {node : Node} (h : node.isText = false) (nodes : List Node) :
    coreNodes (node :: nodes) = node.core :: coreNodes nodes := by
  have hkeep : withoutText (node :: nodes) = node :: withoutText nodes :=
    List.filter_cons_of_pos (by simp [h])
  rw [coreNodes, hkeep, List.map_cons]
  rfl

/-- The template without text and places. -/
def Template.core (template : Template) : Template :=
  ⟨.start, coreNodes template.nodes⟩

/-! ## Actions without text between them -/

/-- The action as far as reading depends on it. -/
def Action.core (act : Action) : Action :=
  ⟨.start, act.tokens.map Token.core, act.close.core⟩

/-- The segment as far as reading depends on it: a text leaves nothing. -/
def Segment.core? : Segment → Option Segment
  | .text _ _ => none
  | .action act => some (.action act.core)

/-- The actions of a source as far as reading depends on them. -/
def Scan.core (scan : Scan) : Scan :=
  ⟨scan.segments.filterMap Segment.core?, .start⟩

/-! ## Assemblies without text -/

/-- The open structure without text and places. -/
def OpenBranch.core (b : OpenBranch) : OpenBranch where
  kind := b.kind
  pos := .start
  pipe := barePipeline b.pipe
  bodyPos := .start
  body := coreNodes b.body
  alternative := b.alternative.map fun (_, nodes) => (.start, coreNodes nodes)
  chained := b.chained
  outerScope := b.outerScope

namespace OpenBranch

theorem toNode_core (b : OpenBranch) : b.core.toNode = b.toNode.core := by
  obtain ⟨kind, pos, pipe, bodyPos, body, _ | ⟨altPos, alt⟩, chained, outer⟩ := b
  · simp [core, toNode, Node.core, Node.textless, Node.bare, listTextless, bareList,
      alternativeTextless, bareAlternative, bareNodes_nodesTextless, coreNodes_reverse]
  · simp [core, toNode, Node.core, Node.textless, Node.bare, listTextless, bareList,
      alternativeTextless, bareAlternative, bareNodes_nodesTextless, coreNodes_reverse]

theorem add_core {node : Node} (h : node.isText = false) (b : OpenBranch) :
    (b.add node).core = b.core.add node.core := by
  obtain ⟨kind, pos, pipe, bodyPos, body, _ | ⟨altPos, alt⟩, chained, outer⟩ := b
  · simp [core, add, coreNodes_cons h]
  · simp [core, add, coreNodes_cons h]

theorem core_add_of_isText {node : Node} (h : node.isText = true) (b : OpenBranch) :
    (b.add node).core = b.core := by
  obtain ⟨kind, pos, pipe, bodyPos, body, _ | ⟨altPos, alt⟩, chained, outer⟩ := b
  · simp [core, add, coreNodes_cons_of_isText h]
  · simp [core, add, coreNodes_cons_of_isText h]

end OpenBranch

namespace Assembly

/-- The assembly without text and places. -/
def core (a : Assembly) : Assembly :=
  ⟨a.stack.map OpenBranch.core, coreNodes a.nodes, a.scope⟩

theorem core_start : core start = start := rfl

@[simp] theorem scope_core (a : Assembly) : a.core.scope = a.scope := rfl

@[simp] theorem length_stack_core (a : Assembly) : a.core.stack.length = a.stack.length :=
  List.length_map _

@[simp] theorem inRange_core (a : Assembly) : a.core.inRange = a.inRange := by
  rw [inRange, core, List.any_map]
  rfl

theorem add_core {node : Node} (h : node.isText = false) (a : Assembly) :
    (a.add node).core = a.core.add node.core := by
  obtain ⟨_ | ⟨b, bs⟩, nodes, Γ⟩ := a
  · simp [core, add, coreNodes_cons h]
  · simp [core, add, OpenBranch.add_core h]

theorem core_add_of_isText {node : Node} (h : node.isText = true) (a : Assembly) :
    (a.add node).core = a.core := by
  obtain ⟨_ | ⟨b, bs⟩, nodes, Γ⟩ := a
  · simp [core, add, coreNodes_cons_of_isText h]
  · simp [core, add, OpenBranch.core_add_of_isText h]

/-! ## Closing a structure -/

theorem isText_unwind (b : OpenBranch) (bs : List OpenBranch) :
    (unwind b bs).1.isText = false := by
  induction bs generalizing b with
  | nil => rfl
  | cons outer rest ih =>
    rw [unwind]
    split
    · exact ih _
    · rfl

theorem unwind_core (b : OpenBranch) (bs : List OpenBranch) :
    unwind b.core (bs.map OpenBranch.core) =
      ((unwind b bs).1.core, (unwind b bs).2.1, (unwind b bs).2.2.map OpenBranch.core) := by
  induction bs generalizing b with
  | nil =>
    rw [List.map_nil, unwind, unwind, OpenBranch.toNode_core]
    rfl
  | cons outer rest ih =>
    have houter : { outer.core with alternative := some (b.core.pos, [b.core.toNode]) } =
        OpenBranch.core { outer with alternative := some (b.pos, [b.toNode]) } := by
      rw [OpenBranch.toNode_core]
      rfl
    rw [List.map_cons, unwind, unwind, houter, ih, show b.core.chained = b.chained from rfl]
    split
    · rfl
    · rw [OpenBranch.toNode_core]
      rfl

theorem closeBranch_core (pos : Pos) (a : Assembly) :
    verdict (a.core.closeBranch .start) = verdict ((a.closeBranch pos).map core) := by
  obtain ⟨_ | ⟨b, bs⟩, nodes, Γ⟩ := a
  · rfl
  · simp only [core, List.map_cons, closeBranch, unwind_core]
    refine congrArg Except.ok ?_
    exact (add_core (isText_unwind b bs) ⟨(unwind b bs).2.2, nodes, (unwind b bs).2.1⟩).symm

/-! ## Reading an action -/

variable {close : Token}

theorem openBranch_core (kind : BranchKind) (chained : Bool) (pos next : Pos) (ts : List Token)
    (a : Assembly) :
    verdict (a.core.openBranch kind chained .start .start close.core (ts.map Token.core)) =
      verdict ((a.openBranch kind chained pos next close ts).map core) := by
  rw [openBranch, openBranch, length_stack_core, scope_core]
  split
  · rcases verdict_cases (readPipeline_core (.opening kind) (a.stack.length + 1) ts a.scope) with
      ⟨d, e, hd, he, hkind⟩ | ⟨⟨pipe, Δ⟩, hd, he⟩
    · rw [hd, he]
      exact verdict_error hkind
    · rw [hd, he]
      rfl
  · rfl

theorem expectClose_core (k : Keyword) (ts : List Token) :
    verdict (expectClose k (ts.map Token.core)) = verdict ((expectClose k ts).map id) := by
  cases ts <;> rfl

theorem chainTokens?_core (kind : BranchKind) (ts : List Token) :
    chainTokens? kind (ts.map Token.core) = (chainTokens? kind ts).map (List.map Token.core) := by
  rcases ts with _ | ⟨⟨tokenKind, pos, space⟩, rest⟩
  · rfl
  cases tokenKind with
  | keyword k =>
    simp only [List.map_cons, Token.core, chainTokens?]
    split <;> rfl
  | _ => rfl

theorem divide_core (pos next : Pos) (ts : List Token) (a : Assembly) :
    verdict (a.core.divide .start .start close.core (ts.map Token.core)) =
      verdict ((a.divide pos next close ts).map core) := by
  obtain ⟨_ | ⟨b, bs⟩, nodes, Γ⟩ := a
  · rfl
  have hcore : (core ⟨b :: bs, nodes, Γ⟩).divide .start .start close.core (ts.map Token.core) = _ :=
    divide_cons .start .start close.core (ts.map Token.core) b.core (bs.map OpenBranch.core)
      (coreNodes nodes) Γ
  rw [hcore, divide_cons, show b.core.kind = b.kind from rfl, chainTokens?_core,
    show b.core.alternative.isSome = b.alternative.isSome from Option.isSome_map]
  split
  · rfl
  cases chainTokens? b.kind ts with
  | some ps => exact openBranch_core b.kind true pos next ps ⟨b :: bs, nodes, Γ⟩
  | none =>
    rcases verdict_cases (expectClose_core .elseWord ts) with ⟨d, e, hd, he, hkind⟩ | ⟨_, hd, he⟩
    · rw [Option.map_none, hd, he]
      exact verdict_error hkind
    · rw [Option.map_none, hd, he]
      rfl

/-- A pipeline that becomes a node of its own, and whose variables stay in scope. -/
theorem addPipeline_core (context : Context) (node : Pos → Pipeline Operand → Node)
    (hnode : ∀ pos pipe, (node pos pipe).isText = false)
    (hcore : ∀ pos pipe, (node pos pipe).core = node .start (barePipeline pipe)) (pos : Pos)
    (ts : List Token) (a : Assembly) :
    verdict (match readPipeline close.core context a.core.stack.length
          ⟨ts.map Token.core, a.core.scope⟩ with
        | .error e => .error e
        | .ok (pipe, scope) => .ok { a.core.add (node .start pipe) with scope } :
          Except TemplateError Assembly) =
      verdict ((match readPipeline close context a.stack.length ⟨ts, a.scope⟩ with
        | .error e => .error e
        | .ok (pipe, scope) => .ok { a.add (node pos pipe) with scope } :
          Except TemplateError Assembly).map core) := by
  rw [length_stack_core, scope_core]
  rcases verdict_cases (readPipeline_core context a.stack.length ts a.scope) with
    ⟨d, e, hd, he, hkind⟩ | ⟨⟨pipe, Δ⟩, hd, he⟩
  · rw [hd, he]
    exact verdict_error hkind
  · rw [hd, he]
    dsimp only
    rw [← hcore pos, ← add_core (hnode pos pipe)]
    rfl

theorem template_core (pos : Pos) (ts : List Token) (a : Assembly) :
    verdict (a.core.template .start close.core (ts.map Token.core)) =
      verdict ((a.template pos close ts).map core) := by
  rcases ts with _ | ⟨⟨kind, titlePos, space⟩, rest⟩
  · rfl
  cases kind with
  | string name =>
    cases rest with
    | nil =>
      have hadd : (a.add (.template pos name none)).core = _ := add_core rfl a
      exact congrArg Except.ok hadd.symm
    | cons t rest =>
      exact addPipeline_core .templateClause (fun pos pipe => .template pos name (some pipe))
        (fun _ _ => rfl) (fun _ _ => rfl) pos (t :: rest) a
  | _ => rfl

theorem jump_core (k : Keyword) (node : Pos → Node) (hnode : ∀ pos, (node pos).isText = false)
    (hcore : ∀ pos, (node pos).core = node .start) (pos : Pos) (ts : List Token) (a : Assembly) :
    verdict (a.core.jump k node .start (ts.map Token.core)) =
      verdict ((a.jump k node pos ts).map core) := by
  rw [jump, jump, inRange_core]
  split
  · refine verdict_map (expectClose_core k ts) fun _ => ?_
    rw [add_core (hnode pos), hcore]
  · rfl

/-- An action that does not begin with a keyword is a pipeline. -/
theorem action_of_no_keyword {ts : List Token} (h : ∀ t ∈ ts.head?, ∀ k, t.kind ≠ .keyword k)
    (opened next : Pos) (a : Assembly) :
    a.action ⟨opened, ts, close⟩ next =
      match readPipeline close .command a.stack.length ⟨ts, a.scope⟩ with
      | .error e => .error e
      | .ok (pipe, scope) => .ok { a.add (.action opened pipe) with scope } := by
  unfold action
  dsimp only
  split
  · next k _ _ _ => exact absurd rfl (h _ rfl k)
  · rfl

/-- **An action is read from its core**: what it does to an assembly, it does to the assembly
without text and places. -/
theorem action_core (act : Action) (next : Pos) (a : Assembly) :
    verdict (a.core.action act.core .start) = verdict ((a.action act next).map core) := by
  obtain ⟨opened, ts, close⟩ := act
  by_cases hword : ∀ t ∈ ts.head?, ∀ k, t.kind ≠ .keyword k
  · have hcore : ∀ t ∈ (ts.map Token.core).head?, ∀ k, t.kind ≠ .keyword k := by
      intro t ht
      rw [List.head?_map, Option.mem_def, Option.map_eq_some_iff] at ht
      obtain ⟨t, ht, rfl⟩ := ht
      exact hword t ht
    rw [Action.core, action_of_no_keyword hcore, action_of_no_keyword hword]
    exact addPipeline_core .command .action (fun _ _ => rfl) (fun _ _ => rfl) opened ts a
  simp only [Classical.not_forall, Classical.not_not] at hword
  obtain ⟨⟨_, pos, space⟩, ht, k, rfl⟩ := hword
  obtain ⟨rest, rfl⟩ := List.head?_eq_some_iff.mp ht
  cases k with
  | ifWord => exact openBranch_core .conditional false opened next rest a
  | rangeWord => exact openBranch_core .range false opened next rest a
  | withWord => exact openBranch_core .focus false opened next rest a
  | elseWord => exact divide_core opened next rest a
  | endWord =>
    cases rest with
    | nil => exact closeBranch_core opened a
    | cons => rfl
  | templateWord => exact template_core opened rest a
  | breakWord => exact jump_core .breakWord .leave (fun _ => rfl) (fun _ => rfl) opened rest a
  | continueWord =>
    exact jump_core .continueWord .skip (fun _ => rfl) (fun _ => rfl) opened rest a
  | defineWord => rfl
  | blockWord => rfl

/-! ## Reading all segments -/

theorem startOf_core (segments : List Segment) :
    startOf .start (segments.filterMap Segment.core?) = .start := by
  induction segments with
  | nil => rfl
  | cons s rest ih =>
    cases s with
    | text pos s => exact ih
    | action act => rfl

/-- **A run over segments is a run over their actions.** A text leaves the core of the assembly as
it is. -/
theorem run_core (finish : Pos) (segments : List Segment) (a : Assembly) :
    verdict (run .start a.core (segments.filterMap Segment.core?)) =
      verdict ((run finish a segments).map core) := by
  induction segments generalizing a with
  | nil => rfl
  | cons s rest ih =>
    rw [run]
    cases s with
    | text pos s =>
      -- the run over actions does not move: it is at the same core already
      have hcore := ih (a.add (.text pos s))
      rw [core_add_of_isText rfl] at hcore
      exact hcore
    | action act =>
      rw [List.filterMap_cons_some (show Segment.core? (.action act) = _ from rfl), run,
        startOf_core]
      rcases verdict_cases (action_core act (startOf finish rest) a) with
        ⟨d, e, hd, he, hkind⟩ | ⟨b, hd, he⟩
      · rw [segment, segment, hd, he]
        exact verdict_error hkind
      · rw [segment, segment, hd, he]
        exact ih b

theorem finished_core (finish : Pos) (a : Assembly) :
    verdict (a.core.finished .start) = verdict ((a.finished finish).map coreNodes) := by
  obtain ⟨_ | ⟨b, bs⟩, nodes, Γ⟩ := a
  · exact congrArg Except.ok (coreNodes_reverse nodes).symm
  · rfl

end Assembly

/-- **A template is read from the core of its source**: without text and places it is the same. -/
theorem Template.ofScan_core (scan : Scan) :
    verdict (Template.ofScan scan.core) = verdict ((Template.ofScan scan).map Template.core) := by
  have hrun := Assembly.run_core scan.finish scan.segments .start
  rw [Assembly.core_start] at hrun
  rw [Template.ofScan, Template.ofScan, Scan.core]
  rcases verdict_cases hrun with ⟨d, e, hd, he, hkind⟩ | ⟨a, hd, he⟩
  · rw [hd, he]
    exact verdict_error hkind
  · rw [hd, he, Assembly.startOf_core]
    exact verdict_map (Assembly.finished_core scan.finish a) fun _ => rfl

/-! ## Tokens determine the core -/

/-- The same kind, and space before both or before neither. The space before a right delimiter
does not count. -/
def Token.Agrees (t u : Token) : Prop :=
  t.kind = u.kind ∧ (t.kind ≠ .rightDelim → t.spaceBefore = u.spaceBefore)

instance (t u : Token) : Decidable (t.Agrees u) :=
  inferInstanceAs (Decidable (_ ∧ _))

theorem Token.core_eq_core_iff {t u : Token} : t.core = u.core ↔ t.Agrees u := by
  constructor
  · intro h
    have hkind : t.core.kind = u.core.kind := congrArg Token.kind h
    rw [kind_core, kind_core] at hkind
    refine ⟨hkind, fun hdelim => ?_⟩
    rw [← spaceBefore_core hdelim, h, spaceBefore_core (hkind ▸ hdelim)]
  · rintro ⟨hkind, hspace⟩
    by_cases hdelim : t.kind = .rightDelim
    · simp [core, ← hkind, hdelim]
    · simp [core, ← hkind, hspace hdelim]

/-- The token of a text. -/
def Token.isText (t : Token) : Bool :=
  match t.kind with
  | .text _ => true
  | _ => false

namespace Scan

/-- The tokens of a source that are no text. -/
def tokensWithoutText (scan : Scan) : List Token :=
  scan.tokens.filter fun t => !t.isText

/-- Inside an action and at its ends stands no text. -/
theorem filter_tokens_action {act : Action} (h : act.WellFormed) :
    (Segment.action act).tokens.filter (fun t => !t.isText) = (Segment.action act).tokens := by
  have hinner : ∀ t ∈ act.tokens, (!t.isText) = true := by
    intro t ht
    have hkind := h.isInner t ht
    unfold Token.isText
    split
    · next htext =>
      rw [htext] at hkind
      cases hkind
    · rfl
  have hclose : (!act.close.isText) = true := by
    rw [Token.isText, h.kind_close]
    rfl
  refine List.filter_eq_self.mpr (List.forall_mem_cons.mpr ⟨rfl, ?_⟩)
  exact List.forall_mem_append.mpr ⟨hinner, List.forall_mem_singleton.mpr hclose⟩

theorem tokens_core (scan : Scan) (hwf : ∀ s ∈ scan.segments, s.WellFormed) :
    scan.core.tokens = scan.tokensWithoutText.map Token.core := by
  obtain ⟨segments, finish⟩ := scan
  induction segments with
  | nil => rfl
  | cons s rest ih =>
    obtain ⟨hs, hrest⟩ := List.forall_mem_cons.mp hwf
    rw [tokensWithoutText, tokens_cons, List.filter_append, List.map_append]
    cases s with
    | text pos s => exact ih hrest
    | action act =>
      have hcore : (core ⟨.action act :: rest, finish⟩).tokens =
          (Segment.action act.core).tokens ++ (core ⟨rest, finish⟩).tokens :=
        tokens_cons .start (.action act.core) (rest.filterMap Segment.core?)
      rw [hcore, ih hrest, filter_tokens_action hs]
      simp [Segment.tokens, Action.core, Token.core, tokensWithoutText]

theorem wellFormed_core {scan : Scan} (hwf : ∀ s ∈ scan.segments, s.WellFormed) :
    ∀ s ∈ scan.core.segments, s.WellFormed := by
  intro s hs
  obtain ⟨s', hs', hcore⟩ := List.mem_filterMap.mp hs
  cases s' with
  | text pos s => cases hcore
  | action act =>
    cases hcore
    have hact : act.WellFormed := hwf _ hs'
    refine ⟨fun t ht => ?_, hact.kind_close⟩
    obtain ⟨u, hu, rfl⟩ := List.mem_map.mp ht
    exact hact.isInner u hu

/-- **Sources whose tokens agree, but for text, have the same core.** -/
theorem core_eq_of_tokens {a b : Scan} (ha : ∀ s ∈ a.segments, s.WellFormed)
    (hb : ∀ s ∈ b.segments, s.WellFormed)
    (h : List.Forall₂ Token.Agrees a.tokensWithoutText b.tokensWithoutText) : a.core = b.core := by
  have htokens : a.core.tokens = b.core.tokens := by
    rw [tokens_core a ha, tokens_core b hb, ← List.forall₂_eq_eq_eq, List.forall₂_map_left_iff,
      List.forall₂_map_right_iff]
    exact h.imp fun _ _ => Token.core_eq_core_iff.mpr
  have hleft : Spells .start a.core.segments b.core.tokens := ⟨wellFormed_core ha, htokens⟩
  have hright : Spells .start b.core.segments b.core.tokens := ⟨wellFormed_core hb, rfl⟩
  exact congrArg (Scan.mk · .start) (hright.unique hleft)

end Scan

end Fieldwise
