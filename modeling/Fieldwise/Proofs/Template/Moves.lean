import Fieldwise.Proofs.Template.Textless

/-!
# What one segment does, whatever stands around it

A segment looks at little of the assembly that it is read into: how many structures are open,
whether one of them is a range, the variables in scope, and of the innermost structure its kind and
whether it is divided already.

* `View` : that much of an assembly. `Move`, `Assembly.move` : what segments do to assemblies.
* `IsMove` : the move that a segment makes where an assembly has a given view.
* `Assembly.segment_eq_ok_iff` : reading a segment is making its move.
* `IsMove.unique` : how deep a segment stands, and in which structures, may keep it from making a
  move, but does not change the move.
* `Assembly.run_cons_eq_ok_iff`, `Assembly.run_append_eq_ok_iff` : runs, by moves and by parts.
-/

set_option autoImplicit false

namespace Fieldwise

/-! ## Pipelines at other depths -/

namespace Grammar

mutual

theorem IsTerm.shallower : ∀ {d : Nat} {Γ Δ : Scope} {ts : List Token} {a : Operand},
    IsTerm d Γ ts a Δ → ∀ {d' : Nat}, d' ≤ d → IsTerm d' Γ ts a Δ
  | _, _, _, _, _, .atom h, _, _ => .atom h
  | _, _, _, _, _, .group hd ho hp hc, _, hle =>
    .group (Nat.lt_of_le_of_lt hle hd) ho (hp.shallower (Nat.succ_le_succ hle)) hc

theorem IsOperand.shallower : ∀ {d : Nat} {Γ Δ : Scope} {ts : List Token} {a : Operand},
    IsOperand d Γ ts a Δ → ∀ {d' : Nat}, d' ≤ d → IsOperand d' Γ ts a Δ
  | _, _, _, _, _, .mk ht hf ha, _, hle => .mk (ht.shallower hle) hf ha

theorem IsCommand.shallower : ∀ {d : Nat} {Γ Δ : Scope} {ts : List Token} {args : List Operand},
    IsCommand d Γ ts args Δ → ∀ {d' : Nat}, d' ≤ d → IsCommand d' Γ ts args Δ
  | _, _, _, _, _, .one h, _, hle => .one (h.shallower hle)
  | _, _, _, _, _, .cons h ht hrest, _, hle => .cons (h.shallower hle) ht (hrest.shallower hle)

theorem IsCommands.shallower : ∀ {d : Nat} {Γ Δ : Scope} {ts : List Token}
    {commands : List (Command Operand)}, IsCommands d Γ ts commands Δ →
    ∀ {d' : Nat}, d' ≤ d → IsCommands d' Γ ts commands Δ
  | _, _, _, _, _, .one h hpos, _, hle => .one (h.shallower hle) hpos
  | _, _, _, _, _, .cons h hpos hbar hrest, _, hle =>
    .cons (h.shallower hle) hpos hbar (hrest.shallower hle)

/-- A pipeline is derived where fewer structures and parentheses stand around it as well. -/
theorem IsPipeline.shallower : ∀ {context : Context} {d : Nat} {Γ Δ : Scope} {ts : List Token}
    {pipe : Pipeline Operand}, IsPipeline context d Γ ts pipe Δ →
    ∀ {d' : Nat}, d' ≤ d → IsPipeline context d' Γ ts pipe Δ
  | _, _, _, _, _, _, .mk hd hc hpos, _, hle => .mk hd (hc.shallower hle) hpos

end

/-- **The same tokens are the same pipeline at any depth.** -/
theorem IsPipeline.unique {context : Context} {d d' : Nat} {Γ Δ Δ' : Scope} {ts : List Token}
    {pipe pipe' : Pipeline Operand} (h : IsPipeline context d Γ ts pipe Δ)
    (h' : IsPipeline context d' Γ ts pipe' Δ') : pipe = pipe' ∧ Δ = Δ' := by
  -- both are read at the lesser depth, and reading gives one result
  have hclose : (⟨.rightDelim, .start, false⟩ : Token).kind = .rightDelim := rfl
  have hread := (readPipeline_eq_ok_iff hclose h.isInner).mpr (h.shallower (Nat.min_le_left d d'))
  have hread' :=
    (readPipeline_eq_ok_iff hclose h'.isInner).mpr (h'.shallower (Nat.min_le_right d d'))
  exact Prod.mk.inj (Except.ok.inj (hread.symm.trans hread'))

end Grammar

open Grammar

@[simp] theorem BranchKind.keyword_inj {kind kind' : BranchKind} :
    kind.keyword = kind'.keyword ↔ kind = kind' := by
  cases kind <;> cases kind' <;> decide

/-- The keyword of a control structure opens it and does nothing else. -/
@[simp] theorem BranchKind.keyword_ne (kind : BranchKind) : kind.keyword ≠ .elseWord ∧
    kind.keyword ≠ .endWord ∧ kind.keyword ≠ .templateWord ∧ kind.keyword ≠ .breakWord ∧
    kind.keyword ≠ .continueWord := by
  cases kind <;> decide

/-! ## Views and moves -/

/-- What a segment looks at: how many structures are open, whether one of them is a range, the
variables in scope, and the kind of the innermost structure with whether it is divided. -/
structure View where
  depth : Nat
  inRange : Bool
  scope : Scope
  innermost : Option (BranchKind × Bool)

/-- What a segment does: it adds a node, opens a structure, turns to the second list of the
innermost structure, or closes this structure. -/
inductive Move where
  | add (node : Node) (scope : Scope)
  | enter (b : OpenBranch) (scope : Scope)
  | divide (next : Pos)
  | close

/-- The move of a segment where `v` is the view; `next` is where the segment after it starts. -/
inductive IsMove (v : View) (next : Pos) : Segment → Move → Prop
  | text (pos : Pos) (s : String) : IsMove v next (.text pos s) (.add (.text pos s) v.scope)
  | action {opened : Pos} {ts : List Token} {close : Token} {pipe : Pipeline Operand} {Δ : Scope}
      (hword : ∀ t ∈ ts.head?, ∀ k, t.kind ≠ .keyword k)
      (hp : IsPipeline .command v.depth v.scope ts pipe Δ) :
      IsMove v next (.action ⟨opened, ts, close⟩) (.add (.action opened pipe) Δ)
  | template {opened : Pos} {word title close : Token} {name : String}
      (hw : word.kind = .keyword .templateWord) (ht : title.kind = .string name) :
      IsMove v next (.action ⟨opened, [word, title], close⟩)
        (.add (.template opened name none) v.scope)
  | templateWith {opened : Pos} {word title close : Token} {name : String} {ts : List Token}
      {pipe : Pipeline Operand} {Δ : Scope} (hw : word.kind = .keyword .templateWord)
      (ht : title.kind = .string name) (hp : IsPipeline .templateClause v.depth v.scope ts pipe Δ) :
      IsMove v next (.action ⟨opened, word :: title :: ts, close⟩)
        (.add (.template opened name (some pipe)) Δ)
  | leave {opened : Pos} {word close : Token} (hw : word.kind = .keyword .breakWord)
      (hrange : v.inRange = true) :
      IsMove v next (.action ⟨opened, [word], close⟩) (.add (.leave opened) v.scope)
  | skip {opened : Pos} {word close : Token} (hw : word.kind = .keyword .continueWord)
      (hrange : v.inRange = true) :
      IsMove v next (.action ⟨opened, [word], close⟩) (.add (.skip opened) v.scope)
  | enter {kind : BranchKind} {opened : Pos} {word close : Token} {ts : List Token}
      {pipe : Pipeline Operand} {Δ : Scope} (hw : word.kind = .keyword kind.keyword)
      (hd : v.depth < maxNesting)
      (hp : IsPipeline (.opening kind) (v.depth + 1) v.scope ts pipe Δ) :
      IsMove v next (.action ⟨opened, word :: ts, close⟩)
        (.enter ⟨kind, opened, pipe, next, [], none, false, v.scope⟩ Δ)
  | chain {kind : BranchKind} {opened : Pos} {word again close : Token} {ts : List Token}
      {pipe : Pipeline Operand} {Δ : Scope} (hinner : v.innermost = some (kind, false))
      (hrange : kind ≠ .range) (hw : word.kind = .keyword .elseWord)
      (hagain : again.kind = .keyword kind.keyword) (hd : v.depth < maxNesting)
      (hp : IsPipeline (.opening kind) (v.depth + 1) v.scope ts pipe Δ) :
      IsMove v next (.action ⟨opened, word :: again :: ts, close⟩)
        (.enter ⟨kind, opened, pipe, next, [], none, true, v.scope⟩ Δ)
  | divide {kind : BranchKind} {opened : Pos} {word close : Token}
      (hinner : v.innermost = some (kind, false)) (hw : word.kind = .keyword .elseWord) :
      IsMove v next (.action ⟨opened, [word], close⟩) (.divide next)
  | close {opened : Pos} {word close : Token} (hinner : v.innermost ≠ none)
      (hw : word.kind = .keyword .endWord) : IsMove v next (.action ⟨opened, [word], close⟩) .close

/-- **A segment makes one move**, whatever the structures around it: the variables in scope are all
that the move takes from them. -/
theorem IsMove.unique {v v' : View} {next : Pos} {s : Segment} {m m' : Move}
    (h : IsMove v next s m) (h' : IsMove v' next s m') (hscope : v.scope = v'.scope) : m = m' := by
  obtain ⟨d, loop, Γ, inner⟩ := v
  obtain ⟨d', loop', Γ', inner'⟩ := v'
  obtain rfl : Γ = Γ' := hscope
  cases h with
  | text => cases h'; rfl
  | action hword hp =>
    cases h' with
    | action _ hp' => obtain ⟨rfl, rfl⟩ := hp.unique hp'; rfl
    | template hw | templateWith hw | leave hw | skip hw | enter hw | chain _ _ hw | divide _ hw
    | close _ hw => exact absurd hw (hword _ rfl _)
  | template hw ht =>
    cases h' with
    | templateWith _ _ hp => exact absurd rfl hp.ne_nil
    | enter hw' => exact absurd (hw'.symm.trans hw) (by simp)
    | _ => simp_all
  | templateWith hw ht hp =>
    cases h' with
    | template => exact absurd rfl hp.ne_nil
    | templateWith _ ht' hp' =>
      obtain ⟨rfl, rfl⟩ := hp.unique hp'
      cases ht.symm.trans ht'
      rfl
    | enter hw' => exact absurd (hw'.symm.trans hw) (by simp)
    | _ => simp_all
  | leave hw | skip hw | divide _ hw | close _ hw =>
    cases h' with
    | enter hw' => exact absurd (hw'.symm.trans hw) (by simp)
    | _ => simp_all
  | enter hw _ hp =>
    cases h' with
    | enter hw' _ hp' =>
      obtain rfl := BranchKind.keyword_inj.mp (TokenKind.keyword.inj (hw.symm.trans hw'))
      obtain ⟨rfl, rfl⟩ := hp.unique hp'
      rfl
    | action hword => exact absurd hw (hword _ rfl _)
    | template hw' | templateWith hw' | leave hw' | skip hw' | chain _ _ hw' | divide _ hw'
    | close _ hw' => exact absurd (hw.symm.trans hw') (by simp)
  | chain _ _ hw hagain _ hp =>
    cases h' with
    | chain _ _ _ hagain' _ hp' =>
      obtain rfl := BranchKind.keyword_inj.mp (TokenKind.keyword.inj (hagain.symm.trans hagain'))
      obtain ⟨rfl, rfl⟩ := hp.unique hp'
      rfl
    | enter hw' => exact absurd (hw'.symm.trans hw) (by simp)
    | _ => simp_all

namespace Assembly

variable {a z : Assembly} {next finish : Pos} {s : Segment} {m : Move}

/-- What a segment sees of the assembly. -/
def view (a : Assembly) : View :=
  ⟨a.stack.length, a.inRange, a.scope, a.stack.head?.map fun b => (b.kind, b.alternative.isSome)⟩

/-- The assembly after a move. Without an open structure there is none to divide or to close. -/
def move (a : Assembly) : Move → Assembly
  | .add node Δ => a.extend [node] Δ
  | .enter b Δ => ⟨b :: a.stack, a.nodes, Δ⟩
  | .divide next =>
    match a.stack with
    | [] => a
    | b :: bs => ⟨{ b with alternative := some (next, []) } :: bs, a.nodes, a.scope⟩
  | .close =>
    match a.stack with
    | [] => a
    | b :: bs => shut b bs a.nodes

theorem exists_innermost {kind : BranchKind} (h : a.view.innermost = some (kind, false)) :
    ∃ b bs, a.stack = b :: bs ∧ b.kind = kind ∧ b.alternative = none := by
  obtain ⟨_ | ⟨b, bs⟩, nodes, Γ⟩ := a
  · cases h
  · simp only [view, List.head?_cons, Option.map_some, Option.some.injEq, Prod.mk.injEq] at h
    exact ⟨b, bs, rfl, h.1, by simpa using h.2⟩

theorem jump_eq_ok_iff {k : Keyword} {node : Pos → Node} {pos : Pos} {ts : List Token} :
    a.jump k node pos ts = .ok z ↔ a.inRange = true ∧ ts = [] ∧ z = a.add (node pos) := by
  unfold jump
  split
  · next hrange =>
    constructor
    · intro h
      obtain ⟨_, hts, rfl⟩ := map_eq_ok_iff.mp h
      exact ⟨hrange, expectClose_eq_ok_iff.mp hts, rfl⟩
    · rintro ⟨-, rfl, rfl⟩
      rfl
  · next hrange => simp [hrange]

theorem isMove_of_template {opened pos : Pos} {space : Bool} {rest : List Token} {close : Token}
    (hclose : close.kind = .rightDelim) (hrest : ∀ t ∈ rest, t.kind.isInner = true)
    (h : a.template opened close rest = .ok z) :
    ∃ m, IsMove a.view next
      (.action ⟨opened, ⟨.keyword .templateWord, pos, space⟩ :: rest, close⟩) m ∧
      z = a.move m := by
  unfold template at h
  split at h
  · cases h
    exact ⟨_, .template rfl rfl, add_eq_extend ..⟩
  · split at h
    · cases h
    next pipe Δ hread =>
    cases h
    have hpipe := (readPipeline_eq_ok_iff hclose
      (fun t ht => hrest t (List.mem_cons_of_mem _ ht))).mp hread
    exact ⟨_, .templateWith rfl rfl hpipe, add_with_scope ..⟩
  · cases h

theorem isMove_of_marker {opened : Pos} {word close : Token} {rest : List Token}
    (hclose : close.kind = .rightDelim) (hrest : ∀ t ∈ rest, t.kind.isInner = true)
    (hw : IsMarker word) (h : a.action ⟨opened, word :: rest, close⟩ next = .ok z) :
    ∃ m, IsMove a.view next (.action ⟨opened, word :: rest, close⟩) m ∧ z = a.move m := by
  obtain ⟨_ | ⟨b, bs⟩, nodes, Γ⟩ := a
  · exact absurd h (action_marker_of_nil rfl hw)
  have hinner : b.alternative = none →
      (⟨b :: bs, nodes, Γ⟩ : Assembly).view.innermost = some (b.kind, false) := by
    intro hb
    simp [view, hb]
  rcases marker_cases rfl hw h with ⟨hend, rfl, rfl⟩ | ⟨helse, hb, rfl, rfl⟩ |
    ⟨helse, hb, hrange, again, ps, rfl, hagain, hopen⟩
  · exact ⟨_, .close nofun hend, rfl⟩
  · exact ⟨_, .divide (hinner hb) helse, rfl⟩
  · obtain ⟨hd, pipe, Δ, hp, rfl⟩ := (openBranch_eq_ok_iff hclose
      (fun t ht => hrest t (List.mem_cons_of_mem _ ht))).mp hopen
    exact ⟨_, .chain (hinner hb) hrange helse hagain hd hp, rfl⟩

theorem isMove_of_segment (hwf : s.WellFormed) (h : a.segment s next = .ok z) :
    ∃ m, IsMove a.view next s m ∧ z = a.move m := by
  cases s with
  | text pos s =>
    cases h
    exact ⟨_, .text pos s, add_eq_extend ..⟩
  | action act =>
    obtain ⟨opened, ts, close⟩ := act
    obtain ⟨hinner, hclose⟩ : Action.WellFormed ⟨opened, ts, close⟩ := hwf
    dsimp only at hinner hclose
    have h : a.action ⟨opened, ts, close⟩ next = .ok z := h
    by_cases hword : ∀ t ∈ ts.head?, ∀ k, t.kind ≠ .keyword k
    · rw [action_of_no_keyword hword] at h
      split at h
      · cases h
      next pipe Δ hread =>
      cases h
      exact ⟨_, .action hword ((readPipeline_eq_ok_iff hclose hinner).mp hread),
        add_with_scope ..⟩
    simp only [Classical.not_forall, Classical.not_not] at hword
    obtain ⟨⟨_, pos, space⟩, ht, k, rfl⟩ := hword
    obtain ⟨rest, rfl⟩ := List.head?_eq_some_iff.mp ht
    have hrest : ∀ t ∈ rest, t.kind.isInner = true :=
      fun t ht => hinner t (List.mem_cons_of_mem _ ht)
    have henter (kind : BranchKind) (hk : k = kind.keyword)
        (hopen : a.openBranch kind false opened next close rest = .ok z) :
        ∃ m, IsMove a.view next (.action ⟨opened, ⟨.keyword k, pos, space⟩ :: rest, close⟩) m ∧
          z = a.move m := by
      obtain ⟨hd, pipe, Δ, hp, rfl⟩ := (openBranch_eq_ok_iff hclose hrest).mp hopen
      exact ⟨_, .enter (by rw [hk]) hd hp, rfl⟩
    have hmarker (hk : IsMarker ⟨.keyword k, pos, space⟩) :
        ∃ m, IsMove a.view next (.action ⟨opened, ⟨.keyword k, pos, space⟩ :: rest, close⟩) m ∧
          z = a.move m :=
      isMove_of_marker hclose hrest hk h
    cases k with
    | ifWord => exact henter .conditional rfl h
    | rangeWord => exact henter .range rfl h
    | withWord => exact henter .focus rfl h
    | elseWord => exact hmarker (.inl rfl)
    | endWord => exact hmarker (.inr rfl)
    | templateWord => exact isMove_of_template hclose hrest h
    | breakWord =>
      obtain ⟨hrange, rfl, rfl⟩ := jump_eq_ok_iff.mp h
      exact ⟨_, .leave rfl hrange, add_eq_extend ..⟩
    | continueWord =>
      obtain ⟨hrange, rfl, rfl⟩ := jump_eq_ok_iff.mp h
      exact ⟨_, .skip rfl hrange, add_eq_extend ..⟩
    | defineWord => cases h
    | blockWord => cases h

theorem segment_of_isMove (hwf : s.WellFormed) (h : IsMove a.view next s m) :
    a.segment s next = .ok (a.move m) := by
  cases h with
  | text pos s => exact congrArg Except.ok (add_eq_extend ..)
  | action hword hp => exact action_of_isPipeline hwf.kind_close hp
  | @template _ word title _ _ hw ht =>
    obtain ⟨_, _, _⟩ := word
    obtain ⟨_, _, _⟩ := title
    cases hw
    cases ht
    exact congrArg Except.ok (add_eq_extend ..)
  | @templateWith _ word _ _ _ _ _ _ hw ht hp =>
    obtain ⟨_, _, _⟩ := word
    cases hw
    exact template_of_isPipeline hwf.kind_close ht hp
  | @leave opened word _ hw hrange =>
    obtain ⟨_, _, _⟩ := word
    cases hw
    exact jump_of_inRange .breakWord .leave opened hrange
  | @skip opened word _ hw hrange =>
    obtain ⟨_, _, _⟩ := word
    cases hw
    exact jump_of_inRange .continueWord .skip opened hrange
  | enter hw hd hp =>
    exact action_of_openBranch hw
      ((openBranch_eq_ok_iff hwf.kind_close hp.isInner).mpr ⟨hd, _, _, hp, rfl⟩)
  | chain hinner hrange hw hagain hd hp =>
    obtain ⟨b, bs, hstack, rfl, hb⟩ := exists_innermost hinner
    obtain ⟨stack, nodes, Γ⟩ := a
    subst hstack
    exact action_of_chained hw hagain hrange hb
      ((openBranch_eq_ok_iff hwf.kind_close hp.isInner).mpr ⟨hd, _, _, hp, rfl⟩)
  | divide hinner hw =>
    obtain ⟨b, bs, hstack, rfl, hb⟩ := exists_innermost hinner
    obtain ⟨stack, nodes, Γ⟩ := a
    subst hstack
    exact action_of_else hw hb
  | close hinner hw =>
    obtain ⟨_ | ⟨b, bs⟩, nodes, Γ⟩ := a
    · exact absurd rfl hinner
    · exact action_of_end hw

/-- **Reading a segment is making its move.** -/
theorem segment_eq_ok_iff (hwf : s.WellFormed) :
    a.segment s next = .ok z ↔ ∃ m, IsMove a.view next s m ∧ z = a.move m := by
  refine ⟨isMove_of_segment hwf, ?_⟩
  rintro ⟨m, hm, rfl⟩
  exact segment_of_isMove hwf hm

/-! ## Runs -/

theorem run_cons_eq_ok_iff {rest : List Segment} (hwf : s.WellFormed) :
    run finish a (s :: rest) = .ok z ↔
      ∃ m, IsMove a.view (startOf finish rest) s m ∧ run finish (a.move m) rest = .ok z := by
  rw [run]
  constructor
  · intro h
    split at h
    · cases h
    next b hb =>
    obtain ⟨m, hm, rfl⟩ := (segment_eq_ok_iff hwf).mp hb
    exact ⟨m, hm, h⟩
  · rintro ⟨m, hm, h⟩
    rw [segment_of_isMove hwf hm]
    exact h

/-- A run over segments in two parts stops in between. -/
theorem run_append_eq_ok_iff {front rest : List Segment} :
    run finish a (front ++ rest) = .ok z ↔
      ∃ b, run (startOf finish rest) a front = .ok b ∧ run finish b rest = .ok z := by
  induction front generalizing a with
  | nil => simp [run]
  | cons s front ih =>
    have hstart : startOf finish (front ++ rest) = startOf (startOf finish rest) front := by
      cases front <;> rfl
    rw [List.cons_append, run, run, hstart]
    cases a.segment s (startOf (startOf finish rest) front) with
    | error e => simp
    | ok b => exact ih

end Assembly

open Assembly in
/-- A template is accepted where the run over its segments leaves no structure open. -/
theorem Template.ofScan_eq_ok_iff_run {scan : Scan} {template : Template} :
    Template.ofScan scan = .ok template ↔ ∃ z, run scan.finish .start scan.segments = .ok z ∧
      z.stack = [] ∧ template = ⟨startOf scan.finish scan.segments, z.nodes.reverse⟩ := by
  unfold Template.ofScan
  cases run scan.finish .start scan.segments with
  | error e => simp
  | ok z =>
    obtain ⟨_ | ⟨b, bs⟩, nodes, Γ⟩ := z
    · simp [finished, Except.map, eq_comm]
    · simp [finished, Except.map]

end Fieldwise
