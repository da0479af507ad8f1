import Fieldwise.Proofs.Template.Moves
import Mathlib.Data.List.Induction

/-!
# Structures that are open and what stands around them

An `end` closes the innermost structure that has an end of its own, with the structures that are
chained to it. So the segments alone tell how many ends are missing, and between the opening of a
structure and its end nothing below the structure is looked at.

* `Segment.turn`, `levelAfter`, `Balanced` : ends counted along segments.
* `Assembly.kinds` : the open structures that have an end of their own. `Assembly.kinds_move` : a
  move changes them as the segment says.
* `Assembly.Uniform` : chained structures stand in structures of their kind.
* `Ground` : what stands around a structure. `Ground.exists_under_move`, `Ground.exists_under_run` :
  from move to move and over a run it stays as it is, and could be another one, as long as the
  structure is open.
* `Assembly.exists_opening`, `Assembly.exists_end` : the segment that opened a structure and the one
  that ends it.
-/

set_option autoImplicit false

namespace Fieldwise

/-! ## Counting ends -/

/-- What a segment does to the structures that have an end of their own. -/
inductive Turn where
  | opens (kind : BranchKind)
  | ends
  | stays
  deriving DecidableEq, Repr

/-- The turn of a segment, which its first token tells. -/
def Segment.turn : Segment → Turn
  | .text _ _ => .stays
  | .action act =>
    match act.tokens.head?.map Token.kind with
    | some (.keyword .ifWord) => .opens .conditional
    | some (.keyword .rangeWord) => .opens .range
    | some (.keyword .withWord) => .opens .focus
    | some (.keyword .endWord) => .ends
    | _ => .stays

/-- How many ends are missing behind a turn where `n` were missing before it. -/
def Turn.level : Turn → Nat → Option Nat
  | opens _, n => some (n + 1)
  | ends, 0 => none
  | ends, n + 1 => some n
  | stays, n => some n

/-- How many ends are missing behind some segments where `n` were missing before them, or `none` if
there are more ends than that. -/
def levelAfter : Nat → List Segment → Option Nat
  | n, [] => some n
  | n, s :: rest => (s.turn.level n).bind fun n => levelAfter n rest

/-- Every structure that the segments open is ended by them, and no other one. -/
def Balanced (segments : List Segment) : Prop :=
  levelAfter 0 segments = some 0

instance (segments : List Segment) : Decidable (Balanced segments) :=
  inferInstanceAs (Decidable (_ = _))

theorem levelAfter_concat (n : Nat) (segments : List Segment) (s : Segment) :
    levelAfter n (segments ++ [s]) = (levelAfter n segments).bind s.turn.level := by
  induction segments generalizing n with
  | nil =>
    show (s.turn.level n).bind some = s.turn.level n
    cases s.turn.level n <;> rfl
  | cons t rest ih =>
    rw [List.cons_append, levelAfter, levelAfter]
    cases t.turn.level n with
    | none => rfl
    | some n => exact ih n

/-- The turn of a move. -/
def Move.turn : Move → Turn
  | .enter b _ => if b.chained then .stays else .opens b.kind
  | .close => .ends
  | .add _ _ | .divide _ => .stays

theorem Segment.turn_of_keyword {opened : Pos} {word close : Token} {ts : List Token}
    {kind : BranchKind} (h : word.kind = .keyword kind.keyword) :
    (Segment.action ⟨opened, word :: ts, close⟩).turn = .opens kind := by
  simp only [turn, List.head?_cons, Option.map_some, h]
  cases kind <;> rfl

/-- A move has the turn that the segment announces. -/
theorem IsMove.turn {v : View} {next : Pos} {s : Segment} {m : Move} (h : IsMove v next s m) :
    m.turn = s.turn := by
  cases h with
  | text => rfl
  | @action _ ts _ _ _ hword =>
    cases ts with
    | nil => rfl
    | cons t ts =>
      have ht := hword t rfl
      simp only [Move.turn, Segment.turn, List.head?_cons, Option.map_some]
      split <;> simp_all
  | template hw | templateWith hw | leave hw | skip hw | chain _ _ hw | divide _ hw | close _ hw =>
    simp [Move.turn, Segment.turn, hw]
  | enter hw =>
    rw [Segment.turn_of_keyword hw]
    rfl

section Words

variable {v : View} {next opened : Pos} {word close : Token} {ts : List Token} {m : Move}
  {act : Action}

theorem IsMove.of_opening {kind : BranchKind}
    (h : IsMove v next (.action ⟨opened, word :: ts, close⟩) m)
    (hword : word.kind = .keyword kind.keyword) :
    v.depth < maxNesting ∧ ∃ pipe Δ,
      Grammar.IsPipeline (.opening kind) (v.depth + 1) v.scope ts pipe Δ ∧
      m = .enter ⟨kind, opened, pipe, next, [], none, false, v.scope⟩ Δ := by
  cases h with
  | enter hw hd hp =>
    obtain rfl := BranchKind.keyword_inj.mp (TokenKind.keyword.inj (hw.symm.trans hword))
    exact ⟨hd, _, _, hp, rfl⟩
  | action hno => exact absurd hword (hno _ rfl _)
  | template hw | templateWith hw | leave hw | skip hw | chain _ _ hw | divide _ hw
  | close _ hw => exact absurd (hword.symm.trans hw) (by simp)

theorem Move.eq_close (h : m.turn = .ends) : m = .close := by
  cases m with
  | close => rfl
  | add | divide => cases h
  | enter b =>
    rw [Move.turn] at h
    split at h <;> cases h

/-- The action is a keyword alone. -/
structure Action.IsLone (k : Keyword) (act : Action) : Prop where
  exists_tokens : ∃ word : Token, act.tokens = [word] ∧ word.kind = .keyword k
  kind_close : act.close.kind = .rightDelim

theorem Action.IsLone.wellFormed {k : Keyword} (h : act.IsLone k) :
    Segment.WellFormed (.action act) := by
  obtain ⟨word, htokens, hword⟩ := h.exists_tokens
  refine ⟨?_, h.kind_close⟩
  rw [htokens]
  simp [hword, TokenKind.isInner]

theorem IsMove.close_of_end (hact : act.IsLone .endWord)
    (hinner : v.innermost ≠ none) : IsMove v next (.action act) .close := by
  obtain ⟨word, htokens, hword⟩ := hact.exists_tokens
  obtain ⟨opened, _, close⟩ := act
  cases htokens
  exact .close hinner hword

theorem Action.IsLone.turn_end (hact : act.IsLone .endWord) :
    (Segment.action act).turn = .ends := by
  obtain ⟨word, htokens, hword⟩ := hact.exists_tokens
  simp [Segment.turn, htokens, hword]

end Words

/-- The structures that have an end of their own, behind a turn. -/
def Turn.after : Turn → List BranchKind → List BranchKind
  | opens kind, ks => kind :: ks
  | ends, ks => ks.tail
  | stays, ks => ks

@[simp] theorem OpenBranch.chained_addAll (nodes : List Node) (b : OpenBranch) :
    (b.addAll nodes).chained = b.chained := by
  unfold addAll
  split <;> rfl

namespace Assembly

variable {a z : Assembly} {next finish : Pos} {s : Segment} {segments : List Segment} {m : Move}
  {b c t : OpenBranch} {bs top low : List OpenBranch} {nodes : List Node} {node : Node} {Γ Δ : Scope}

/-! ## Structures that have an end of their own -/

/-- The kinds of the structures that have an end of their own, innermost first. -/
def kinds (stack : List OpenBranch) : List BranchKind :=
  (stack.filter fun b => !b.chained).map OpenBranch.kind

theorem kinds_cons (b : OpenBranch) (bs : List OpenBranch) :
    kinds (b :: bs) = if b.chained then kinds bs else b.kind :: kinds bs := by
  cases hb : b.chained <;> simp [kinds, hb]

theorem kinds_append (top low : List OpenBranch) : kinds (top ++ low) = kinds top ++ kinds low := by
  simp [kinds]

/-- Each chained structure stands in one of its kind. -/
def Uniform : List OpenBranch → Prop
  | [] => True
  | b :: bs => (b.chained = true → ∃ c ∈ bs.head?, c.kind = b.kind) ∧ Uniform bs

theorem Uniform.of_append (h : Uniform (top ++ low)) : Uniform low := by
  induction top with
  | nil => exact h
  | cons b top ih => exact ih h.2

/-- The innermost structure is of the kind of the innermost one with an end of its own. -/
theorem Uniform.head?_kinds (h : Uniform (b :: bs)) : (kinds (b :: bs)).head? = some b.kind := by
  induction bs generalizing b with
  | nil =>
    cases hb : b.chained with
    | false => rw [kinds_cons, hb]; rfl
    | true =>
      obtain ⟨c, hc, -⟩ := h.1 hb
      cases hc
  | cons c cs ih =>
    rw [kinds_cons]
    split
    · next hb =>
      obtain ⟨d, hd, hkind⟩ := h.1 hb
      cases hd
      rw [ih h.2, hkind]
    · rfl

theorem Uniform.kinds_ne_nil (h : Uniform (b :: bs)) : kinds (b :: bs) ≠ [] := by
  intro hnil
  have hhead := h.head?_kinds
  rw [hnil] at hhead
  cases hhead

/-- The list that is being filled does not tell which structures have an end of their own. -/
theorem kinds_addAll_cons (nodes : List Node) (b : OpenBranch) (bs : List OpenBranch) :
    kinds (b.addAll nodes :: bs) = kinds (b :: bs) := by
  rw [kinds_cons, kinds_cons, OpenBranch.chained_addAll, OpenBranch.kind_addAll]

theorem Uniform.addAll (h : Uniform (b :: bs)) (nodes : List Node) :
    Uniform (b.addAll nodes :: bs) := by
  refine ⟨fun hb => ?_, h.2⟩
  rw [OpenBranch.chained_addAll] at hb
  rw [OpenBranch.kind_addAll]
  exact h.1 hb

/-- **Closing a structure** takes it away with the structures that it is chained to, up to the first
one that has an end of its own, whatever stands below. -/
theorem exists_shut (h : kinds (b :: bs) ≠ []) : ∃ node Δ rest, rest <:+ bs ∧
    kinds rest = (kinds (b :: bs)).tail ∧
    ∀ low nodes, shut b (bs ++ low) nodes = add node ⟨rest ++ low, nodes, Δ⟩ := by
  induction bs generalizing b with
  | nil =>
    cases hb : b.chained with
    | true => simp [kinds, hb] at h
    | false =>
      refine ⟨b.toNode, b.outerScope, [], List.suffix_refl [], by simp [kinds, hb], ?_⟩
      exact fun low nodes => shut_of_not_chained hb low nodes
  | cons c cs ih =>
    rw [kinds_cons] at h ⊢
    split at h
    · next hb =>
      have hkinds : kinds (c.withTail (some ⟨b.pos, [b.toNode]⟩) :: cs) = kinds (c :: cs) := by
        rw [kinds_cons, kinds_cons]
        rfl
      obtain ⟨node, Δ, rest, hrest, htail, hshut⟩ := ih (hkinds ▸ h)
      refine ⟨node, Δ, rest, hrest.trans (List.suffix_cons c cs), ?_, fun low nodes => ?_⟩
      · rw [if_pos hb, htail, hkinds]
      · rw [List.cons_append, shut_of_chained hb, hshut]
    · next hb =>
      have hb : b.chained = false := by simpa using hb
      refine ⟨b.toNode, b.outerScope, c :: cs, List.suffix_refl _, ?_, fun low nodes => ?_⟩
      · simp [hb]
      · exact shut_of_not_chained hb _ nodes

theorem kinds_extend (nodes : List Node) (Δ : Scope) (a : Assembly) :
    kinds (a.extend nodes Δ).stack = kinds a.stack := by
  obtain ⟨_ | ⟨b, bs⟩, _, _⟩ := a
  · rfl
  · exact kinds_addAll_cons nodes b bs

theorem Uniform.extend (h : Uniform a.stack) (nodes : List Node) (Δ : Scope) :
    Uniform (a.extend nodes Δ).stack := by
  obtain ⟨_ | ⟨b, bs⟩, _, _⟩ := a
  · trivial
  · exact Uniform.addAll h nodes

/-- **A move changes the structures that have an end of their own** by its turn. -/
theorem kinds_move (h : Uniform a.stack) (m : Move) :
    kinds (a.move m).stack = m.turn.after (kinds a.stack) := by
  cases m with
  | add node Δ => exact kinds_extend [node] Δ a
  | enter b Δ =>
    rw [move, kinds_cons, Move.turn]
    split <;> rfl
  | divide next =>
    obtain ⟨_ | ⟨b, bs⟩, nodes, Γ⟩ := a
    · rfl
    · show kinds ({ b with alternative := some (next, []) } :: bs) = kinds (b :: bs)
      rw [kinds_cons, kinds_cons]
  | close =>
    obtain ⟨_ | ⟨b, bs⟩, nodes, Γ⟩ := a
    · rfl
    · obtain ⟨node, Δ, rest, -, hkinds, hshut⟩ := exists_shut h.kinds_ne_nil
      have hshut := hshut [] nodes
      rw [List.append_nil, List.append_nil, add_eq_extend] at hshut
      show kinds (shut b bs nodes).stack = _
      rw [hshut, kinds_extend, hkinds]
      rfl

/-- Chained structures stand in structures of their kind behind every move. -/
theorem Uniform.move (h : Uniform a.stack) (hm : IsMove a.view next s m) :
    Uniform (a.move m).stack := by
  cases hm with
  | text | action | template | templateWith | leave | skip => exact h.extend _ _
  | enter => exact ⟨nofun, h⟩
  | chain hinner =>
    obtain ⟨b, bs, hstack, hkind, -⟩ := exists_innermost hinner
    exact ⟨fun _ => ⟨b, by rw [hstack]; rfl, hkind⟩, h⟩
  | divide hinner =>
    obtain ⟨_ | ⟨b, bs⟩, nodes, Γ⟩ := a
    · exact h
    · exact h
  | close hinner =>
    obtain ⟨_ | ⟨b, bs⟩, nodes, Γ⟩ := a
    · exact h
    · obtain ⟨node, Δ, rest, ⟨front, hfront⟩, -, hshut⟩ := exists_shut h.kinds_ne_nil
      have hshut := hshut [] nodes
      rw [List.append_nil, List.append_nil, add_eq_extend] at hshut
      show Uniform (shut b bs nodes).stack
      rw [hshut]
      refine Uniform.extend (a := ⟨rest, nodes, Δ⟩) ?_ _ _
      have hbs : Uniform bs := h.2
      rw [← hfront] at hbs
      exact hbs.of_append

end Assembly

/-! ## What stands below a structure -/

/-- The structure, chained or not. -/
def OpenBranch.mark (chained : Bool) (b : OpenBranch) : OpenBranch :=
  { b with chained }

theorem OpenBranch.addAll_mark (nodes : List Node) (chained : Bool) (b : OpenBranch) :
    (b.mark chained).addAll nodes = (b.addAll nodes).mark chained := by
  obtain ⟨kind, pos, pipe, bodyPos, body, _ | ⟨altPos, alt⟩, _, outer⟩ := b
  · rfl
  · rfl

@[simp] theorem OpenBranch.pos_addAll (nodes : List Node) (b : OpenBranch) :
    (b.addAll nodes).pos = b.pos := by
  unfold addAll
  split <;> rfl

/-- What a structure stands on: whether it is chained, the structures around it, and the nodes
before the outermost one. -/
structure Ground where
  chained : Bool
  stack : List OpenBranch
  nodes : List Node

namespace Ground

open Assembly

variable {x y : Ground} {top : List OpenBranch} {c : OpenBranch} {Γ : Scope} {m : Move}
  {n k : Nat} {finish : Pos} {segments : List Segment} {z : Assembly}

/-- The assembly with the structure `c` on the ground, and `top` inside it. -/
def under (x : Ground) (top : List OpenBranch) (c : OpenBranch) (Γ : Scope) : Assembly :=
  ⟨top ++ c.mark x.chained :: x.stack, x.nodes, Γ⟩

/-- On both grounds a segment sees the same: as many structures, and a range among them or none. -/
structure Alike (x y : Ground) : Prop where
  length_stack : y.stack.length = x.stack.length
  inRange : y.stack.any (fun b => b.kind = .range) = x.stack.any fun b => b.kind = .range

theorem Alike.symm (h : x.Alike y) : y.Alike x :=
  ⟨h.length_stack.symm, h.inRange.symm⟩

theorem Alike.view_under (h : x.Alike y) (top : List OpenBranch) (c : OpenBranch) (Γ : Scope) :
    (y.under top c Γ).view = (x.under top c Γ).view := by
  have hhead : (top ++ c.mark y.chained :: y.stack).head?.map
        (fun b => (b.kind, b.alternative.isSome)) =
      (top ++ c.mark x.chained :: x.stack).head?.map fun b => (b.kind, b.alternative.isSome) := by
    cases top <;> rfl
  simp only [under, view, Assembly.inRange, List.length_append, List.length_cons, List.any_append,
    List.any_cons, h.length_stack, h.inRange, hhead]
  rfl

/-- Adding a node fills the innermost structure. -/
theorem exists_under_extend (top : List OpenBranch) (c : OpenBranch) (Γ : Scope) (node : Node)
    (Δ : Scope) : ∃ top' c', c'.kind = c.kind ∧ c'.pos = c.pos ∧ kinds top' = kinds top ∧
      ∀ x : Ground, (x.under top c Γ).extend [node] Δ = x.under top' c' Δ := by
  cases top with
  | nil =>
    refine ⟨[], c.addAll [node], OpenBranch.kind_addAll .., OpenBranch.pos_addAll .., rfl, ?_⟩
    intro x
    simp [under, Assembly.extend, OpenBranch.addAll_mark]
  | cons t top =>
    exact ⟨t.addAll [node] :: top, c, rfl, rfl, kinds_addAll_cons [node] t top, fun x => rfl⟩

/-- **A move leaves the ground alone** as long as the structure that stands on it is not closed. -/
theorem exists_under_move (hlevel : m.turn.level (kinds top).length = some n) :
    ∃ top' c' Γ', c'.kind = c.kind ∧ c'.pos = c.pos ∧ (kinds top').length = n ∧
      ∀ x : Ground, (x.under top c Γ).move m = x.under top' c' Γ' := by
  cases m with
  | add node Δ =>
    obtain rfl := Option.some.inj hlevel
    obtain ⟨top', c', hkind, hpos, hkinds, hunder⟩ := exists_under_extend top c Γ node Δ
    exact ⟨top', c', Δ, hkind, hpos, by rw [hkinds], hunder⟩
  | enter b Δ =>
    refine ⟨b :: top, c, Δ, rfl, rfl, ?_, fun x => rfl⟩
    rw [kinds_cons]
    rw [Move.turn] at hlevel
    split at hlevel
    · next hb =>
      rw [if_pos hb]
      exact Option.some.inj hlevel
    · next hb =>
      rw [if_neg hb]
      exact Option.some.inj hlevel
  | divide next =>
    obtain rfl := Option.some.inj hlevel
    cases top with
    | nil => exact ⟨[], { c with alternative := some (next, []) }, Γ, rfl, rfl, rfl, fun x => rfl⟩
    | cons t top =>
      refine ⟨{ t with alternative := some (next, []) } :: top, c, Γ, rfl, rfl, ?_, fun x => rfl⟩
      rw [kinds_cons, kinds_cons]
  | close =>
    cases htop : kinds top with
    | nil =>
      rw [htop] at hlevel
      cases hlevel
    | cons kind ks =>
      rw [htop] at hlevel
      obtain rfl := Option.some.inj hlevel
      obtain ⟨t, top, rfl⟩ : ∃ t rest, top = t :: rest := by
        cases top with
        | nil => cases htop
        | cons t top => exact ⟨t, top, rfl⟩
      have hne : kinds (t :: top) ≠ [] := by
        rw [htop]
        exact List.cons_ne_nil kind ks
      obtain ⟨node, Δ, rest, -, hkinds, hshut⟩ := exists_shut hne
      obtain ⟨top', c', hkind, hpos, hkinds', hunder⟩ := exists_under_extend rest c Δ node Δ
      refine ⟨top', c', Δ, hkind, hpos, ?_, fun x => ?_⟩
      · rw [hkinds', hkinds, htop]
        rfl
      · refine (hshut (c.mark x.chained :: x.stack) x.nodes).trans ?_
        rw [add_eq_extend]
        exact hunder x

/-- **A run leaves the ground alone** as long as the structure that stands on it is not closed. On
another ground it comes to the same, if it comes to an end there: it does so on an alike one. -/
theorem exists_under_run (hwf : ∀ s ∈ segments, s.WellFormed) :
    ∀ {top : List OpenBranch} {c : OpenBranch} {Γ : Scope} {z : Assembly},
    levelAfter (kinds top).length segments = some k →
    run finish (x.under top c Γ) segments = .ok z →
    ∃ top' c' Γ', c'.kind = c.kind ∧ c'.pos = c.pos ∧ (kinds top').length = k ∧
      z = x.under top' c' Γ' ∧ ∀ y : Ground,
      (x.Alike y ∨ ∃ z, run finish (y.under top c Γ) segments = .ok z) →
      run finish (y.under top c Γ) segments = .ok (y.under top' c' Γ') := by
  induction segments with
  | nil =>
    intro top c Γ z hlevel h
    cases h
    exact ⟨top, c, Γ, rfl, rfl, Option.some.inj hlevel, rfl, fun y _ => rfl⟩
  | cons s rest ih =>
    obtain ⟨hs, hrest⟩ := List.forall_mem_cons.mp hwf
    intro top c Γ z hlevel h
    obtain ⟨m, hm, h⟩ := (run_cons_eq_ok_iff hs).mp h
    rw [levelAfter, Option.bind_eq_some_iff] at hlevel
    obtain ⟨n, hn, hlevel⟩ := hlevel
    rw [← hm.turn] at hn
    obtain ⟨top', c', Γ', hkind, hpos, rfl, hmove⟩ := exists_under_move (c := c) (Γ := Γ) hn
    rw [hmove] at h
    obtain ⟨top'', c'', Γ'', hkind', hpos', hk, hz, hrun⟩ := ih hrest hlevel h
    refine ⟨top'', c'', Γ'', hkind'.trans hkind, hpos'.trans hpos, hk, hz, ?_⟩
    rintro y (halike | ⟨w, hw⟩)
    · refine (run_cons_eq_ok_iff hs).mpr ⟨m, ?_, ?_⟩
      · rw [halike.view_under]
        exact hm
      · rw [hmove]
        exact hrun y (.inl halike)
    · obtain ⟨m', hm', hw⟩ := (run_cons_eq_ok_iff hs).mp hw
      obtain rfl := hm'.unique hm rfl
      refine (run_cons_eq_ok_iff hs).mpr ⟨m', hm', ?_⟩
      rw [hmove] at hw ⊢
      exact hrun y (.inr ⟨w, hw⟩)

/-- Closing structures that are all chained to the structure on the ground closes this structure,
with the innermost of them as its second list. -/
theorem exists_under_close (h : kinds top = []) : ∃ d : OpenBranch, d.pos = c.pos ∧
    ∀ (x : Ground) (Γ : Scope),
      (x.under top c Γ).move .close = shut (d.mark x.chained) x.stack x.nodes := by
  induction hlength : top.length generalizing top c with
  | zero =>
    obtain rfl := List.length_eq_zero_iff.mp hlength
    exact ⟨c, rfl, fun x Γ => rfl⟩
  | succ n ih =>
    obtain ⟨t, top, rfl⟩ := List.exists_cons_of_length_eq_add_one hlength
    rw [kinds_cons] at h
    split at h
    · next ht =>
      cases top with
      | nil =>
        refine ⟨c.withTail (some ⟨t.pos, [t.toNode]⟩), rfl, fun x Γ => ?_⟩
        exact shut_of_chained ht x.stack x.nodes
      | cons u top =>
        -- the structure next to it gets the innermost one as its second list
        have hkinds : kinds (u.withTail (some ⟨t.pos, [t.toNode]⟩) :: top) = [] := by
          rw [kinds_cons] at h ⊢
          exact h
        obtain ⟨d, hpos, hclose⟩ := ih (c := c) hkinds (by simpa using hlength)
        refine ⟨d, hpos, fun x Γ => ?_⟩
        rw [← hclose x Γ]
        exact shut_of_chained ht _ x.nodes
    · cases h

end Ground

/-! ## Where structures are opened and ended -/

namespace Assembly

/-- From the start on, chained structures stand in structures of their kind. -/
theorem uniform_of_run {finish : Pos} : ∀ {segments : List Segment} {a z : Assembly},
    (∀ s ∈ segments, s.WellFormed) → Uniform a.stack → run finish a segments = .ok z →
    Uniform z.stack
  | [], _, _, _, ha, h => by
    cases h
    exact ha
  | s :: rest, a, z, hwf, ha, h => by
    obtain ⟨hs, hrest⟩ := List.forall_mem_cons.mp hwf
    obtain ⟨m, hm, h⟩ := (run_cons_eq_ok_iff hs).mp h
    exact uniform_of_run hrest (ha.move hm) h

/-- **Every open structure that has an end of its own was opened by some segment**, behind which as
many structures stay open as stand inside it. -/
theorem exists_opening {segments : List Segment} (hwf : ∀ s ∈ segments, s.WellFormed) :
    ∀ {finish : Pos} {z : Assembly} {k : Nat} {kind : BranchKind},
    run finish .start segments = .ok z → (kinds z.stack)[k]? = some kind →
    ∃ front opening body, segments = front ++ opening :: body ∧ opening.turn = .opens kind ∧
      levelAfter 0 body = some k := by
  induction segments using List.reverseRecOn with
  | nil =>
    intro finish z k kind h hk
    cases h
    cases hk
  | append_singleton segments s ih =>
    obtain ⟨hfront, hs⟩ := List.forall_mem_append.mp hwf
    have hs := hs s List.mem_cons_self
    intro finish z k kind h hk
    obtain ⟨a, ha, h⟩ := run_append_eq_ok_iff.mp h
    obtain ⟨m, hm, h⟩ := (run_cons_eq_ok_iff hs).mp h
    cases h
    rw [kinds_move (uniform_of_run (a := start) hfront trivial ha), hm.turn] at hk
    -- a structure that was open before is open still, at another place among the open ones
    have hearlier : ∀ {i : Nat}, (kinds a.stack)[i]? = some kind → s.turn.level i = some k →
        ∃ front opening body, segments ++ [s] = front ++ opening :: body ∧
          opening.turn = .opens kind ∧ levelAfter 0 body = some k := by
      intro i hi hlevel
      obtain ⟨front, opening, body, rfl, hopens, hbody⟩ := ih hfront ha hi
      refine ⟨front, opening, body ++ [s], by simp, hopens, ?_⟩
      rw [levelAfter_concat, hbody]
      exact hlevel
    cases hturn : s.turn with
    | opens opened =>
      rw [hturn] at hk
      cases k with
      | zero =>
        obtain rfl := Option.some.inj hk
        exact ⟨segments, s, [], rfl, hturn, rfl⟩
      | succ k => exact hearlier (i := k) hk (by rw [hturn]; rfl)
    | ends =>
      rw [hturn, Turn.after, List.getElem?_tail] at hk
      exact hearlier hk (by rw [hturn]; rfl)
    | stays =>
      rw [hturn] at hk
      exact hearlier hk (by rw [hturn]; rfl)

/-- **Every open structure that has an end of its own is ended by some segment** of a run that
leaves none open. Up to there the structures inside it are ended. -/
theorem exists_end {finish : Pos} : ∀ {segments : List Segment} {a z : Assembly} {n : Nat},
    (∀ s ∈ segments, s.WellFormed) → Uniform a.stack → run finish a segments = .ok z →
    z.stack = [] → n < (kinds a.stack).length →
    ∃ inside ending rest, segments = inside ++ ending :: rest ∧ levelAfter n inside = some 0 ∧
      ending.turn = .ends
  | [], _, _, _, _, _, h, hz, hn => by
    cases h
    rw [hz] at hn
    exact absurd hn (Nat.not_lt_zero _)
  | s :: segments, a, z, n, hwf, ha, h, hz, hn => by
    obtain ⟨hs, hrest⟩ := List.forall_mem_cons.mp hwf
    obtain ⟨m, hm, h⟩ := (run_cons_eq_ok_iff hs).mp h
    have hkinds := kinds_move ha m
    rw [hm.turn] at hkinds
    have hlater : ∀ {k : Nat}, s.turn.level n = some k → k < (kinds (a.move m).stack).length →
        ∃ inside ending rest, s :: segments = inside ++ ending :: rest ∧
          levelAfter n inside = some 0 ∧ ending.turn = .ends := by
      intro k hlevel hk
      obtain ⟨inside, ending, rest, rfl, hinside, hends⟩ := exists_end hrest (ha.move hm) h hz hk
      refine ⟨s :: inside, ending, rest, rfl, ?_, hends⟩
      rw [levelAfter, hlevel]
      exact hinside
    cases hturn : s.turn with
    | opens kind =>
      rw [hturn] at hkinds
      refine hlater (k := n + 1) (by rw [hturn]; rfl) ?_
      rw [hkinds]
      exact Nat.succ_lt_succ hn
    | stays =>
      rw [hturn] at hkinds
      refine hlater (k := n) (by rw [hturn]; rfl) ?_
      rw [hkinds]
      exact hn
    | ends =>
      cases n with
      | zero => exact ⟨[], s, segments, rfl, rfl, hturn⟩
      | succ n =>
        rw [hturn] at hkinds
        refine hlater (k := n) (by rw [hturn]; rfl) ?_
        rw [hkinds, Turn.after, List.length_tail]
        omega

end Assembly

end Fieldwise
