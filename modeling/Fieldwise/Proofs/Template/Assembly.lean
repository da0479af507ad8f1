import Fieldwise.Proofs.Template.Expression

/-!
# Assemblies and what one action does to them

* `Assembly.extend` : the assembly with nodes added to the innermost open list.
* `Assembly.shut` : the assembly after the end of its innermost structure.
* `Assembly.action_cases` : an action adds an item that the grammar derives, opens a structure, or
  divides or ends the innermost one; `Assembly.marker_cases` says what dividing and ending do.
* `Assembly.action_of_isPipeline` and the lemmas after it : the actions of the grammar are read.
-/

set_option autoImplicit false

namespace Fieldwise

open Grammar

namespace OpenBranch

/-- The structure with nodes added, in order, to the list that is being filled. -/
def addAll (nodes : List Node) (b : OpenBranch) : OpenBranch :=
  match b.alternative with
  | none => { b with body := nodes.reverse ++ b.body }
  | some (pos, others) => { b with alternative := some (pos, nodes.reverse ++ others) }

/-- The structure with a finished second list, if there is one. -/
def withTail (alternative : Option (NodeList Node)) (b : OpenBranch) : OpenBranch :=
  { b with alternative := alternative.map fun list => (list.pos, list.nodes.reverse) }

@[simp] theorem pos_withTail (alternative : Option (NodeList Node)) (b : OpenBranch) :
    (b.withTail alternative).pos = b.pos := rfl

theorem addAll_addAll (nodes others : List Node) (b : OpenBranch) :
    (b.addAll nodes).addAll others = b.addAll (nodes ++ others) := by
  obtain ⟨kind, pos, pipe, bodyPos, body, _ | ⟨altPos, alt⟩, chained, outer⟩ := b
  · simp [addAll]
  · simp [addAll]

theorem add_eq_addAll (node : Node) (b : OpenBranch) : b.add node = b.addAll [node] := by
  obtain ⟨kind, pos, pipe, bodyPos, body, _ | ⟨altPos, alt⟩, chained, outer⟩ := b
  · rfl
  · rfl

@[simp] theorem kind_addAll (nodes : List Node) (b : OpenBranch) :
    (b.addAll nodes).kind = b.kind := by
  unfold addAll
  split <;> rfl

end OpenBranch

namespace Assembly

/-- The assembly with nodes added, in order, to the innermost open list, and the scope behind
them. -/
def extend (nodes : List Node) (Δ : Scope) (a : Assembly) : Assembly :=
  match a.stack with
  | [] => ⟨[], nodes.reverse ++ a.nodes, Δ⟩
  | b :: bs => ⟨b.addAll nodes :: bs, a.nodes, Δ⟩

/-- The assembly after the end of `b`, which closes the structures it is chained to as well. -/
def shut (b : OpenBranch) (bs : List OpenBranch) (nodes : List Node) : Assembly :=
  let (node, scope, stack) := unwind b bs
  add node ⟨stack, nodes, scope⟩

theorem extend_nil (a : Assembly) : a.extend [] a.scope = a := by
  obtain ⟨_ | ⟨⟨_, _, _, _, _, _ | ⟨altPos, alt⟩, _, _⟩, bs⟩, nodes, Γ⟩ := a
  · rfl
  · rfl
  · rfl

theorem extend_extend (nodes others : List Node) (Θ Δ : Scope) (a : Assembly) :
    (a.extend nodes Θ).extend others Δ = a.extend (nodes ++ others) Δ := by
  obtain ⟨_ | ⟨b, bs⟩, ns, Γ⟩ := a
  · simp [extend]
  · simp [extend, OpenBranch.addAll_addAll]

theorem add_with_scope (node : Node) (Δ : Scope) (a : Assembly) :
    { a.add node with scope := Δ } = a.extend [node] Δ := by
  obtain ⟨_ | ⟨b, bs⟩, nodes, Γ⟩ := a
  · rfl
  · simp [add, extend, OpenBranch.add_eq_addAll]

theorem add_eq_extend (node : Node) (a : Assembly) : a.add node = a.extend [node] a.scope := by
  obtain ⟨_ | ⟨b, bs⟩, nodes, Γ⟩ := a
  · rfl
  · simp [add, extend, OpenBranch.add_eq_addAll]

@[simp] theorem length_stack_extend (nodes : List Node) (Δ : Scope) (a : Assembly) :
    (a.extend nodes Δ).stack.length = a.stack.length := by
  obtain ⟨_ | ⟨b, bs⟩, _, _⟩ := a <;> rfl

@[simp] theorem scope_extend (nodes : List Node) (Δ : Scope) (a : Assembly) :
    (a.extend nodes Δ).scope = Δ := by
  obtain ⟨_ | ⟨b, bs⟩, _, _⟩ := a <;> rfl

@[simp] theorem inRange_extend (nodes : List Node) (Δ : Scope) (a : Assembly) :
    (a.extend nodes Δ).inRange = a.inRange := by
  obtain ⟨_ | ⟨b, bs⟩, _, _⟩ := a
  · rfl
  · simp [extend, inRange]

/-- The node of a structure with the given second list. -/
theorem toNode_withTail (kind : BranchKind) (pos : Pos) (pipe : Pipeline Operand)
    (body : NodeList Node) (alternative : Option (NodeList Node)) (chained : Bool) (Γ : Scope) :
    (OpenBranch.withTail alternative
      ⟨kind, pos, pipe, body.pos, body.nodes.reverse, none, chained, Γ⟩).toNode =
      .branch kind pos pipe body alternative := by
  cases alternative <;> simp [OpenBranch.withTail, OpenBranch.toNode]

theorem withTail_none {b : OpenBranch} (h : b.alternative = none) : b.withTail none = b := by
  obtain ⟨kind, pos, pipe, bodyPos, body, alternative, chained, outer⟩ := b
  cases h
  rfl

/-- The end of a chained structure is the end of the structure around it as well. -/
theorem shut_of_chained {b c : OpenBranch} (hc : c.chained = true) (bs : List OpenBranch)
    (nodes : List Node) :
    shut c (b :: bs) nodes = shut (b.withTail (some ⟨c.pos, [c.toNode]⟩)) bs nodes := by
  simp [shut, unwind, hc, OpenBranch.withTail]

theorem shut_of_not_chained {b : OpenBranch} (hb : b.chained = false) (bs : List OpenBranch)
    (nodes : List Node) : shut b bs nodes = add b.toNode ⟨bs, nodes, b.outerScope⟩ := by
  cases bs <;> simp [shut, unwind, hb]

theorem inRange_cons (b : OpenBranch) (nodes : List Node) (Δ : Scope) (a : Assembly) :
    (⟨b :: a.stack, nodes, Δ⟩ : Assembly).inRange = (a.inRange || b.kind = .range) := by
  simp [inRange, Bool.or_comm]

/-! ## What one action does -/

variable {a z : Assembly} {finish next : Pos} {act : Action}

theorem expectClose_eq_ok_iff {k : Keyword} {ts : List Token} :
    expectClose k ts = .ok () ↔ ts = [] := by
  cases ts <;> simp [expectClose]

theorem openBranch_eq_ok_iff {kind : BranchKind} {chained : Bool} {pos : Pos} {close : Token}
    {ts : List Token} (hclose : close.kind = .rightDelim)
    (hinner : ∀ t ∈ ts, t.kind.isInner = true) :
    a.openBranch kind chained pos next close ts = .ok z ↔
      a.stack.length < maxNesting ∧ ∃ pipe Δ,
        IsPipeline (.opening kind) (a.stack.length + 1) a.scope ts pipe Δ ∧
        z = ⟨⟨kind, pos, pipe, next, [], none, chained, a.scope⟩ :: a.stack, a.nodes, Δ⟩ := by
  unfold openBranch
  split
  · next hd =>
    simp only [hd, true_and]
    constructor
    · intro h
      split at h
      · cases h
      next pipe Δ hread =>
      cases h
      exact ⟨pipe, Δ, (readPipeline_eq_ok_iff hclose hinner).mp hread, rfl⟩
    · rintro ⟨pipe, Δ, hp, rfl⟩
      rw [(readPipeline_eq_ok_iff hclose hinner).mpr hp]
  · next hd => simp [hd]

theorem isWord_tokens {k : Keyword} {t close : Token} (opened : Pos) (ht : t.kind = .keyword k)
    (hclose : close.kind = .rightDelim) :
    IsWord k opened (Segment.action ⟨opened, [t], close⟩).tokens :=
  @IsWord.mk k ⟨.leftDelim, opened, false⟩ t close rfl ht hclose

theorem isItem_of_jump {k : Keyword} {node : Pos → Node} {opened : Pos} {word close : Token}
    {rest : List Token} (hnode : ∀ {Γ : Scope} {pos : Pos} {ts : List Token}, IsWord k pos ts →
      IsItem a.stack.length true Γ ts (node pos) Γ)
    (hw : word.kind = .keyword k) (hclose : close.kind = .rightDelim)
    (h : a.jump k node opened rest = .ok z) :
    ∃ node Δ, IsItem a.stack.length a.inRange a.scope
      (Segment.action ⟨opened, word :: rest, close⟩).tokens node Δ ∧ z = a.extend [node] Δ := by
  unfold jump at h
  split at h
  · next hrange =>
    obtain ⟨_, hrest, rfl⟩ := map_eq_ok_iff.mp h
    cases expectClose_eq_ok_iff.mp hrest
    rw [hrange]
    exact ⟨_, _, hnode (isWord_tokens opened hw hclose), add_eq_extend ..⟩
  · cases h

theorem isItem_of_template {opened : Pos} {word close : Token} {rest : List Token}
    (hw : word.kind = .keyword .templateWord) (hclose : close.kind = .rightDelim)
    (hinner : ∀ t ∈ rest, t.kind.isInner = true) (h : a.template opened close rest = .ok z) :
    ∃ node Δ, IsItem a.stack.length a.inRange a.scope
      (Segment.action ⟨opened, word :: rest, close⟩).tokens node Δ ∧ z = a.extend [node] Δ := by
  unfold template at h
  split at h
  · cases h
    exact ⟨_, _, .template rfl hw rfl hclose, add_eq_extend ..⟩
  · split at h
    · cases h
    next pipe Δ hread =>
    cases h
    have hpipe := (readPipeline_eq_ok_iff hclose
      (fun t ht => hinner t (List.mem_cons_of_mem _ ht))).mp hread
    exact ⟨_, Δ, .templateWith rfl hw rfl hpipe hclose, add_with_scope ..⟩
  · cases h

/-- A token inside an action that divides or ends a control structure. -/
def IsMarker (t : Token) : Prop :=
  t.kind = .keyword .elseWord ∨ t.kind = .keyword .endWord

/-- What an action can do: add one item, open a structure, or divide or end the innermost one. -/
theorem action_cases (hwf : act.WellFormed) (h : a.action act next = .ok z) :
    (∃ node Δ, IsItem a.stack.length a.inRange a.scope (Segment.action act).tokens node Δ ∧
      z = a.extend [node] Δ) ∨
    (∃ kind t rest, act.tokens = t :: rest ∧ t.kind = .keyword kind.keyword ∧
      a.openBranch kind false act.opened next act.close rest = .ok z) ∨
    (∃ t rest, act.tokens = t :: rest ∧ IsMarker t) := by
  obtain ⟨opened, ts, close⟩ := act
  obtain ⟨hinner, hclose⟩ := hwf
  unfold action at h
  dsimp only at h hinner hclose
  split at h
  · next k pos space rest =>
    have hrest : ∀ t ∈ rest, t.kind.isInner = true :=
      fun t ht => hinner t (List.mem_cons_of_mem _ ht)
    cases k with
    | ifWord => exact .inr (.inl ⟨.conditional, _, _, rfl, rfl, h⟩)
    | rangeWord => exact .inr (.inl ⟨.range, _, _, rfl, rfl, h⟩)
    | withWord => exact .inr (.inl ⟨.focus, _, _, rfl, rfl, h⟩)
    | elseWord => exact .inr (.inr ⟨_, _, rfl, .inl rfl⟩)
    | endWord => exact .inr (.inr ⟨_, _, rfl, .inr rfl⟩)
    | templateWord => exact .inl (isItem_of_template rfl hclose hrest h)
    | breakWord => exact .inl (isItem_of_jump .leave rfl hclose h)
    | continueWord => exact .inl (isItem_of_jump .skip rfl hclose h)
    | defineWord => cases h
    | blockWord => cases h
  · split at h
    · cases h
    next pipe Δ hread =>
    cases h
    have hpipe := (readPipeline_eq_ok_iff hclose hinner).mp hread
    exact .inl ⟨_, Δ, .action rfl hpipe hclose, add_with_scope ..⟩

theorem action_else (a : Assembly) (next opened pos : Pos) (space : Bool) (rest : List Token)
    (close : Token) :
    a.action ⟨opened, ⟨.keyword .elseWord, pos, space⟩ :: rest, close⟩ next =
      a.divide opened next close rest := rfl

theorem action_end (a : Assembly) (next opened pos : Pos) (space : Bool) (rest : List Token)
    (close : Token) :
    a.action ⟨opened, ⟨.keyword .endWord, pos, space⟩ :: rest, close⟩ next =
      (match expectClose .endWord rest with
      | .error e => .error e
      | .ok () => a.closeBranch opened : Except TemplateError Assembly) := rfl

theorem divide_cons (opened next : Pos) (close : Token) (ts : List Token) (b : OpenBranch)
    (bs : List OpenBranch) (nodes : List Node) (Γ : Scope) :
    (⟨b :: bs, nodes, Γ⟩ : Assembly).divide opened next close ts =
      if b.alternative.isSome then .error ⟨opened, .secondElse b.kind⟩
      else
        match chainTokens? b.kind ts with
        | some ps => openBranch b.kind true opened next close ps ⟨b :: bs, nodes, Γ⟩
        | none =>
          match expectClose .elseWord ts with
          | .error e => .error e
          | .ok () => .ok ⟨{ b with alternative := some (next, []) } :: bs, nodes, Γ⟩ := rfl

theorem chainTokens?_eq_some_iff {kind : BranchKind} {ts ps : List Token} :
    chainTokens? kind ts = some ps ↔
      kind ≠ .range ∧ ∃ again, ts = again :: ps ∧ again.kind = .keyword kind.keyword := by
  constructor
  · intro h
    unfold chainTokens? at h
    split at h
    · split at h
      · next k pos space rest hk =>
        cases h
        obtain ⟨rfl, hrange⟩ : k = kind.keyword ∧ kind ≠ .range := by simpa using hk
        exact ⟨hrange, _, rfl, rfl⟩
      · cases h
    · cases h
  · rintro ⟨hrange, ⟨k, pos, space⟩, rfl, hk⟩
    cases hk
    simp [chainTokens?, hrange]

/-- What an action with a marker does to the innermost structure: it closes it, turns to its
second list, or opens a structure that is chained to it. -/
theorem marker_cases {b : OpenBranch} {bs : List OpenBranch} {nodes : List Node} {Γ : Scope}
    {t : Token} {rest : List Token} (hact : act.tokens = t :: rest) (ht : IsMarker t)
    (h : (⟨b :: bs, nodes, Γ⟩ : Assembly).action act next = .ok z) :
    (t.kind = .keyword .endWord ∧ rest = [] ∧ z = shut b bs nodes) ∨
    (t.kind = .keyword .elseWord ∧ b.alternative = none ∧ rest = [] ∧
      z = ⟨{ b with alternative := some (next, []) } :: bs, nodes, Γ⟩) ∨
    (t.kind = .keyword .elseWord ∧ b.alternative = none ∧ b.kind ≠ .range ∧
      ∃ again ps, rest = again :: ps ∧ again.kind = .keyword b.kind.keyword ∧
        (⟨b :: bs, nodes, Γ⟩ : Assembly).openBranch b.kind true act.opened next act.close ps =
          .ok z) := by
  obtain ⟨opened, ts, close⟩ := act
  obtain ⟨kind, pos, space⟩ := t
  cases hact
  rcases ht with ht | ht
  · cases ht
    rw [action_else, divide_cons] at h
    split at h
    · cases h
    next halt =>
    have halt : b.alternative = none := by simpa using halt
    split at h
    · next ps hchain =>
      obtain ⟨hrange, again, rfl, hagain⟩ := chainTokens?_eq_some_iff.mp hchain
      exact .inr (.inr ⟨rfl, halt, hrange, again, ps, rfl, hagain, h⟩)
    · split at h
      · cases h
      next hrest =>
      cases h
      exact .inr (.inl ⟨rfl, halt, expectClose_eq_ok_iff.mp hrest, rfl⟩)
  · cases ht
    rw [action_end] at h
    split at h
    · cases h
    next hrest =>
    cases h
    exact .inl ⟨rfl, expectClose_eq_ok_iff.mp hrest, rfl⟩

/-- Without an open structure there is nothing to divide or to end. -/
theorem action_marker_of_nil {nodes : List Node} {Γ : Scope} {t : Token} {rest : List Token}
    (hact : act.tokens = t :: rest) (ht : IsMarker t) :
    (⟨[], nodes, Γ⟩ : Assembly).action act next ≠ .ok z := by
  obtain ⟨opened, ts, close⟩ := act
  obtain ⟨kind, pos, space⟩ := t
  cases hact
  intro h
  rcases ht with ht | ht
  · cases ht
    cases h
  · cases ht
    rw [action_end] at h
    split at h <;> cases h

/-! ## Actions of the grammar -/

variable {ts : List Token}

theorem action_of_isPipeline {close : Token} {opened : Pos} {pipe : Pipeline Operand} {Δ : Scope}
    (hclose : close.kind = .rightDelim)
    (hp : IsPipeline .command a.stack.length a.scope ts pipe Δ) :
    a.action ⟨opened, ts, close⟩ next = .ok (a.extend [.action opened pipe] Δ) := by
  have hread := (readPipeline_eq_ok_iff hclose hp.isInner).mpr hp
  unfold action
  dsimp only
  split
  · next k pos space rest => exact absurd rfl (hp.kind_ne_keyword k)
  · rw [hread]
    exact congrArg _ (add_with_scope ..)

theorem jump_of_inRange (k : Keyword) (node : Pos → Node) (opened : Pos)
    (hrange : a.inRange = true) :
    a.jump k node opened [] = .ok (a.extend [node opened] a.scope) := by
  rw [jump, if_pos hrange]
  exact congrArg _ (add_eq_extend ..)

theorem template_of_isPipeline {close title : Token} {name : String} {opened : Pos}
    {pipe : Pipeline Operand} {Δ : Scope} (hclose : close.kind = .rightDelim)
    (htitle : title.kind = .string name)
    (hp : IsPipeline .templateClause a.stack.length a.scope ts pipe Δ) :
    a.template opened close (title :: ts) =
      .ok (a.extend [.template opened name (some pipe)] Δ) := by
  obtain ⟨kind, pos, space⟩ := title
  cases htitle
  have hread := (readPipeline_eq_ok_iff hclose hp.isInner).mpr hp
  obtain ⟨t, us, rfl⟩ := List.exists_cons_of_ne_nil hp.ne_nil
  simp only [template, hread]
  exact congrArg _ (add_with_scope ..)

theorem action_of_openBranch {kind : BranchKind} {word close : Token} {opened : Pos}
    (hw : word.kind = .keyword kind.keyword)
    (h : a.openBranch kind false opened next close ts = .ok z) :
    a.action ⟨opened, word :: ts, close⟩ next = .ok z := by
  obtain ⟨_, pos, space⟩ := word
  cases hw
  cases kind <;> exact h

section Marker

variable {b : OpenBranch} {bs : List OpenBranch} {nodes : List Node} {Γ : Scope} {word : Token}
  {opened : Pos} {close : Token}

theorem action_of_end (hw : word.kind = .keyword .endWord) :
    (⟨b :: bs, nodes, Γ⟩ : Assembly).action ⟨opened, [word], close⟩ next =
      .ok (shut b bs nodes) := by
  obtain ⟨_, pos, space⟩ := word
  cases hw
  rfl

theorem action_of_else (hw : word.kind = .keyword .elseWord) (hb : b.alternative = none) :
    (⟨b :: bs, nodes, Γ⟩ : Assembly).action ⟨opened, [word], close⟩ next =
      .ok ⟨{ b with alternative := some (next, []) } :: bs, nodes, Γ⟩ := by
  obtain ⟨_, pos, space⟩ := word
  cases hw
  rw [action_else, divide_cons]
  simp [hb, chainTokens?, expectClose]

theorem action_of_chained {again : Token} (hw : word.kind = .keyword .elseWord)
    (hagain : again.kind = .keyword b.kind.keyword) (hrange : b.kind ≠ .range)
    (hb : b.alternative = none)
    (h : (⟨b :: bs, nodes, Γ⟩ : Assembly).openBranch b.kind true opened next close ts = .ok z) :
    (⟨b :: bs, nodes, Γ⟩ : Assembly).action ⟨opened, word :: again :: ts, close⟩ next = .ok z := by
  obtain ⟨_, pos, space⟩ := word
  cases hw
  rw [action_else, divide_cons, chainTokens?_eq_some_iff.mpr ⟨hrange, again, rfl, hagain⟩]
  simp [hb, h]

end Marker

end Assembly

end Fieldwise
