import Fieldwise.Proofs.CallTree.Layout
import Fieldwise.Proofs.Template.Nesting

/-!
# Chained arms are nested structures

An `else` that opens a further structure of the kind that it divides says the same as a lone `else`
with that structure inside it, which then has an end of its own.

* `ChainedArm` : a chained arm in the segments of a template. `ChainedArm.divided` : the segments
  with a lone `else`, an opening, and one end more in its place.
* `Assembly.run_arm_iff` : from the arm on, both are read to the same assembly. Between the arm and
  its end they differ below the arm only, so that the run in between is the same on two grounds.
* `Template.ofScan_alike` : a template is read from tokens that are alike, up to places.
* `Template.ofScan_divided` : both are accepted or neither is, with the same syntax and call tree
  up to places, and each arm of an accepted template is a chained arm.
-/

set_option autoImplicit false

namespace Fieldwise

open Grammar

/-! ## The two ways to write an arm -/

/-- An arm of a chain of structures of a kind, and what stands around it: behind an opening of the
kind and a balanced body it is an `else` and the keyword of the kind, and behind what is inside it
stands the end of the chain. -/
structure ChainedArm (kind : BranchKind) where
  front : List Segment
  opening : Segment
  body : List Segment
  opened : Pos
  word : Token
  again : Token
  ts : List Token
  close : Token
  inside : List Segment
  ending : Segment
  rest : List Segment
  kind_ne_range : kind ≠ .range
  turn_opening : opening.turn = .opens kind
  balanced_body : Balanced body
  kind_word : word.kind = .keyword .elseWord
  kind_again : again.kind = .keyword kind.keyword
  balanced_inside : Balanced inside
  turn_ending : ending.turn = .ends

/-- What is written in place of the words of an arm: a lone `else`, the keyword and the delimiter of
an opening of the kind, and a lone `end` that comes behind the end of the chain. -/
structure NestedWords (kind : BranchKind) where
  dividing : Action
  again : Token
  close : Token
  closing : Action
  isLone_dividing : dividing.IsLone .elseWord
  kind_again : again.kind = .keyword kind.keyword
  kind_close : close.kind = .rightDelim
  isLone_closing : closing.IsLone .endWord

namespace ChainedArm

variable {kind : BranchKind} (a : ChainedArm kind)

/-- The arm. -/
def action : Action :=
  ⟨a.opened, a.word :: a.again :: a.ts, a.close⟩

/-- What stands before the arm. -/
def before : List Segment :=
  a.front ++ a.opening :: a.body

/-- What stands behind the arm. -/
def after : List Segment :=
  a.inside ++ a.ending :: a.rest

/-- The arm and what stands around it. -/
def segments : List Segment :=
  a.before ++ .action a.action :: a.after

/-- The lone `else`, at the place of the arm. -/
def dividing (w : NestedWords kind) : Action :=
  { w.dividing with opened := a.opened }

/-- The opening behind it, at the same place. -/
def nested (w : NestedWords kind) : Action :=
  ⟨a.opened, w.again :: a.ts, w.close⟩

/-- What stands behind that opening. -/
def afterNested (w : NestedWords kind) : List Segment :=
  a.inside ++ a.ending :: .action w.closing :: a.rest

/-- The lone `else`, the opening and the lone `end`, and what stands around the arm. -/
def divided (w : NestedWords kind) : List Segment :=
  a.before ++ .action (a.dividing w) :: .action (a.nested w) :: a.afterNested w

variable {a} {w : NestedWords kind}

theorem isLone_dividing (a : ChainedArm kind) (w : NestedWords kind) :
    (a.dividing w).IsLone .elseWord :=
  ⟨w.isLone_dividing.exists_tokens, w.isLone_dividing.kind_close⟩

theorem wellFormed_nested (h : Segment.WellFormed (.action a.action)) :
    Segment.WellFormed (.action (a.nested w)) := by
  obtain ⟨-, -, hts⟩ : _ ∧ _ ∧ ∀ t ∈ a.ts, t.kind.isInner = true := by
    simpa [action] using h.isInner
  refine ⟨List.forall_mem_cons.mpr ⟨?_, hts⟩, w.kind_close⟩
  rw [w.kind_again]
  rfl

theorem wellFormed_divided (h : ∀ s ∈ a.segments, s.WellFormed) :
    ∀ s ∈ a.divided w, s.WellFormed := by
  obtain ⟨hbefore, harm⟩ := List.forall_mem_append.mp h
  obtain ⟨harm, hafter⟩ := List.forall_mem_cons.mp harm
  obtain ⟨hinside, hending⟩ := List.forall_mem_append.mp hafter
  obtain ⟨hending, hrest⟩ := List.forall_mem_cons.mp hending
  simp only [divided, afterNested, List.forall_mem_append, List.forall_mem_cons]
  exact ⟨hbefore, (isLone_dividing a w).wellFormed, wellFormed_nested harm, hinside, hending,
    w.isLone_closing.wellFormed, hrest⟩

end ChainedArm

/-! ## Moves of single actions -/

section Moves

variable {v : View} {next opened : Pos} {word again close : Token} {ts : List Token} {m : Move}
  {s : Segment}

theorem IsMove.of_chain (h : IsMove v next (.action ⟨opened, word :: again :: ts, close⟩) m)
    (hword : word.kind = .keyword .elseWord) :
    ∃ kind pipe Δ, v.innermost = some (kind, false) ∧ kind ≠ .range ∧
      again.kind = .keyword kind.keyword ∧ v.depth < maxNesting ∧
      IsPipeline (.opening kind) (v.depth + 1) v.scope ts pipe Δ ∧
      m = .enter ⟨kind, opened, pipe, next, [], none, true, v.scope⟩ Δ := by
  cases h with
  | chain hinner hrange _ hagain hd hp => exact ⟨_, _, _, hinner, hrange, hagain, hd, hp, rfl⟩
  | action hno => exact absurd hword (hno _ rfl _)
  | template hw | templateWith hw => cases hw.symm.trans hword
  | enter hw => exact absurd (hw.symm.trans hword) (by simp)

theorem IsMove.of_else {act : Action} (h : IsMove v next (.action act) m)
    (hact : act.IsLone .elseWord) :
    (∃ kind, v.innermost = some (kind, false)) ∧ m = .divide next := by
  obtain ⟨word, htokens, hword⟩ := hact.exists_tokens
  obtain ⟨opened, _, close⟩ := act
  cases htokens
  cases h with
  | divide hinner => exact ⟨⟨_, hinner⟩, rfl⟩
  | action hno => exact absurd hword (hno _ rfl _)
  | leave hw | skip hw | close _ hw => cases hw.symm.trans hword
  | enter hw => exact absurd (hw.symm.trans hword) (by simp)

theorem IsMove.divide_of_else {act : Action} {kind : BranchKind} (hact : act.IsLone .elseWord)
    (hinner : v.innermost = some (kind, false)) : IsMove v next (.action act) (.divide next) := by
  obtain ⟨word, htokens, hword⟩ := hact.exists_tokens
  obtain ⟨opened, _, close⟩ := act
  cases htokens
  exact .divide hinner hword

/-- An end closes the innermost structure, whatever it is and wherever the end stands. -/
theorem IsMove.close_anywhere (h : IsMove v next s .close) {v' : View}
    (hinner : v'.innermost ≠ none) (next' : Pos) : IsMove v' next' s .close := by
  cases h with
  | close _ hw => exact .close hinner hw

theorem Move.of_opens {kind : BranchKind} (h : m.turn = .opens kind) :
    ∃ b Δ, m = .enter b Δ ∧ b.kind = kind ∧ b.chained = false := by
  cases m with
  | add | divide | close => cases h
  | enter b Δ =>
    rw [Move.turn] at h
    split at h
    · cases h
    · next hb =>
      cases h
      exact ⟨b, Δ, rfl, rfl, by simpa using hb⟩

end Moves

/-! ## From the arm on -/

namespace Assembly

variable {a z : Assembly} {finish : Pos} {kind : BranchKind} {b c : OpenBranch}
  {bs top : List OpenBranch} {nodes : List Node} {Γ : Scope}

theorem startOf_append_cons (finish : Pos) (inside : List Segment) (s : Segment)
    (rest rest' : List Segment) :
    startOf finish (inside ++ s :: rest) = startOf finish (inside ++ s :: rest') := by
  cases inside <;> rfl

/-- What the structure of an arm stands on, where the arm is chained to `b`. -/
def chainedGround (b : OpenBranch) (bs : List OpenBranch) (nodes : List Node) : Ground :=
  ⟨true, b :: bs, nodes⟩

/-- What the structure of an arm stands on, where it is alone in the second list of `b`, which
starts at `pos`. -/
def nestedGround (pos : Pos) (b : OpenBranch) (bs : List OpenBranch) (nodes : List Node) : Ground :=
  ⟨false, { b with alternative := some (pos, []) } :: bs, nodes⟩

theorem alike_grounds (pos : Pos) (b : OpenBranch) (bs : List OpenBranch) (nodes : List Node) :
    (chainedGround b bs nodes).Alike (nestedGround pos b bs nodes) :=
  ⟨rfl, rfl⟩

/-- Where the arm is nested, two ends do what one end does where it is chained. -/
theorem close_close (htop : kinds top = []) :
    (((nestedGround c.pos b bs nodes).under top c Γ).move .close).move .close =
      ((chainedGround b bs nodes).under top c Γ).move .close := by
  obtain ⟨d, hpos, hclose⟩ := Ground.exists_under_close (c := c) htop
  rw [hclose, hclose, ← hpos]
  unfold nestedGround chainedGround
  rw [shut_of_not_chained rfl, shut_of_chained rfl]
  rfl

theorem innermost_under_ne_none (x : Ground) (top : List OpenBranch) (c : OpenBranch)
    (Γ : Scope) : (x.under top c Γ).view.innermost ≠ none := by
  cases top <;> exact Option.some_ne_none _

/-- Behind the end of a nested arm the structure around the arm is open still. -/
theorem innermost_close_ne_none (htop : kinds top = []) :
    (((nestedGround c.pos b bs nodes).under top c Γ).move .close).view.innermost ≠ none := by
  obtain ⟨d, -, hclose⟩ := Ground.exists_under_close (c := c) htop
  rw [hclose]
  unfold nestedGround
  rw [shut_of_not_chained rfl]
  exact Option.some_ne_none _

/-- **Behind the opening of an arm**, both ways to write it are read to the same assembly. -/
theorem run_after_iff (a : ChainedArm kind) (w : NestedWords kind) (b : OpenBranch) (bs : List OpenBranch)
    (nodes : List Node) (c : OpenBranch) (Γ : Scope) (hwf : ∀ s ∈ a.after, s.WellFormed) :
    run finish ((chainedGround b bs nodes).under [] c Γ) a.after = .ok z ↔
      run finish ((nestedGround c.pos b bs nodes).under [] c Γ) (a.afterNested w) = .ok z := by
  obtain ⟨hwfInside, hwfRest⟩ := List.forall_mem_append.mp hwf
  obtain ⟨hwfEnding, -⟩ := List.forall_mem_cons.mp hwfRest
  have hclosing := w.isLone_closing
  have hinside : levelAfter (kinds []).length a.inside = some 0 := a.balanced_inside
  rw [ChainedArm.after, ChainedArm.afterNested, run_append_eq_ok_iff, run_append_eq_ok_iff]
  constructor
  · rintro ⟨y, hy, h⟩
    obtain ⟨top, d, Δ, -, hpos, htop, rfl, hrun⟩ := Ground.exists_under_run hwfInside hinside hy
    have htop := List.length_eq_zero_iff.mp htop
    obtain ⟨m, hm, h⟩ := (run_cons_eq_ok_iff hwfEnding).mp h
    obtain rfl := Move.eq_close (hm.turn.trans a.turn_ending)
    refine ⟨_, hrun _ (.inl (alike_grounds ..)), (run_cons_eq_ok_iff hwfEnding).mpr
      ⟨.close, hm.close_anywhere (innermost_under_ne_none _ top d Δ) _, ?_⟩⟩
    rw [← hpos]
    refine (run_cons_eq_ok_iff hclosing.wellFormed).mpr
      ⟨.close, .close_of_end hclosing (innermost_close_ne_none htop), ?_⟩
    rw [close_close htop]
    exact h
  · rintro ⟨y, hy, h⟩
    obtain ⟨top, d, Δ, -, hpos, htop, rfl, hrun⟩ := Ground.exists_under_run hwfInside hinside hy
    have htop := List.length_eq_zero_iff.mp htop
    obtain ⟨m, hm, h⟩ := (run_cons_eq_ok_iff hwfEnding).mp h
    obtain rfl := Move.eq_close (hm.turn.trans a.turn_ending)
    obtain ⟨m, hm', h⟩ := (run_cons_eq_ok_iff hclosing.wellFormed).mp h
    obtain rfl := Move.eq_close (hm'.turn.trans hclosing.turn_end)
    refine ⟨_, hrun _ (.inl (alike_grounds ..).symm), (run_cons_eq_ok_iff hwfEnding).mpr
      ⟨.close, hm.close_anywhere (innermost_under_ne_none _ top d Δ) _, ?_⟩⟩
    rw [← hpos, close_close htop] at h
    exact h

/-- **From the arm on, both ways to write it are read to the same assembly**, where the innermost
structure is of the kind of the arm. -/
theorem run_arm_iff (a : ChainedArm kind) (w : NestedWords kind) (hkind : b.kind = kind)
    (hwf : ∀ s ∈ .action a.action :: a.after, s.WellFormed) :
    run finish ⟨b :: bs, nodes, Γ⟩ (.action a.action :: a.after) = .ok z ↔
      run finish ⟨b :: bs, nodes, Γ⟩ (.action (a.dividing w) :: .action (a.nested w) :: a.afterNested w) =
        .ok z := by
  obtain ⟨hwfArm, hwf⟩ := List.forall_mem_cons.mp hwf
  have hnext : startOf finish a.after = startOf finish (a.afterNested w) := startOf_append_cons ..
  rw [run_cons_eq_ok_iff hwfArm, run_cons_eq_ok_iff (a.isLone_dividing w).wellFormed]
  constructor
  · rintro ⟨m, hm, h⟩
    obtain ⟨kind', pipe, Δ, hinner, -, hagain, hd, hp, rfl⟩ := hm.of_chain a.kind_word
    obtain rfl := BranchKind.keyword_inj.mp (TokenKind.keyword.inj (hagain.symm.trans a.kind_again))
    refine ⟨_, .divide_of_else (a.isLone_dividing w) hinner,
      (run_cons_eq_ok_iff (ChainedArm.wellFormed_nested hwfArm)).mpr ⟨_, .enter w.kind_again hd hp, ?_⟩⟩
    rw [hnext] at h
    exact (run_after_iff a w b bs nodes ⟨kind', a.opened, pipe, _, [], none, true, Γ⟩ Δ hwf).mp h
  · rintro ⟨m, hm, h⟩
    obtain ⟨⟨kind', hinner⟩, rfl⟩ := hm.of_else (a.isLone_dividing w)
    obtain ⟨m, hm, h⟩ := (run_cons_eq_ok_iff (ChainedArm.wellFormed_nested hwfArm)).mp h
    obtain ⟨hd, pipe, Δ, hp, rfl⟩ := hm.of_opening w.kind_again
    obtain rfl : b.kind = kind' := (Prod.mk.inj (Option.some.inj hinner)).1
    subst hkind
    refine ⟨_, .chain hinner a.kind_ne_range a.kind_word a.kind_again hd hp, ?_⟩
    rw [hnext]
    exact (run_after_iff a w b bs nodes ⟨b.kind, a.opened, pipe, _, [], none, true, Γ⟩ Δ hwf).mpr h

/-- Behind an opening and balanced segments the innermost structure is of the kind that was
opened. -/
theorem exists_innermost_of_opening {front body : List Segment} {opening : Segment}
    (hwf : ∀ s ∈ front ++ opening :: body, s.WellFormed) (hopening : opening.turn = .opens kind)
    (hbody : Balanced body) (h : run finish start (front ++ opening :: body) = .ok z) :
    ∃ b bs, z.stack = b :: bs ∧ b.kind = kind := by
  have huniform : Uniform z.stack := uniform_of_run (a := start) hwf trivial h
  obtain ⟨a, -, h⟩ := run_append_eq_ok_iff.mp h
  obtain ⟨hwfOpening, hwfBody⟩ := List.forall_mem_cons.mp (List.forall_mem_append.mp hwf).2
  obtain ⟨m, hm, h⟩ := (run_cons_eq_ok_iff hwfOpening).mp h
  obtain ⟨f, Δ, rfl, hkind, hf⟩ := Move.of_opens (hm.turn.trans hopening)
  have hunder : a.move (.enter f Δ) = (⟨false, a.stack, a.nodes⟩ : Ground).under [] f Δ := by
    rw [Ground.under, OpenBranch.mark, ← hf]
    rfl
  rw [hunder] at h
  obtain ⟨top, c, Θ, hc, -, htop, rfl, -⟩ :=
    Ground.exists_under_run hwfBody (show levelAfter (kinds []).length _ = _ from hbody) h
  have hkinds : (kinds (top ++ c.mark false :: a.stack)).head? = some kind := by
    rw [kinds_append, List.length_eq_zero_iff.mp htop, ← hkind, ← hc]
    rfl
  cases top with
  | nil => exact ⟨_, _, rfl, hc.trans hkind⟩
  | cons t top =>
    refine ⟨t, _, rfl, Option.some.inj ?_⟩
    rw [← hkinds]
    exact (Uniform.head?_kinds huniform).symm

end Assembly

/-! ## Templates -/

section Template

open Assembly

variable {template : Template}

/-- **A template is read from tokens that are alike**, up to places. -/
theorem Template.ofScan_alike {scan scan' : Scan} (hwf : ∀ s ∈ scan.segments, s.WellFormed)
    (hwf' : ∀ s ∈ scan'.segments, s.WellFormed) (halike : Alike scan'.content scan.content)
    (h : Template.ofScan scan = .ok template) :
    ∃ template', Template.ofScan scan' = .ok template' ∧ bareList template' = bareList template := by
  obtain ⟨-, Γ, hitems⟩ := derives_tokens_iff.mp ((Template.ofScan_eq_ok_iff hwf).mp h)
  obtain ⟨nodes, Δ, hnodes, hbare, -⟩ := hitems.relocate halike (List.Subset.refl _)
  refine ⟨⟨startOf scan'.finish scan'.segments, nodes⟩, (Template.ofScan_eq_ok_iff hwf').mpr
    (derives_tokens_iff.mpr ⟨startsAt_startOf ⟨hwf', rfl⟩, Δ, hnodes⟩), ?_⟩
  obtain ⟨pos, nodes'⟩ := template
  simp only [bareList, hbare]

/-- Two templates say the same: they have the same syntax and the same call tree, up to places. -/
structure Template.Same (t t' : Template) : Prop where
  bare : bareList t' = bareList t
  tree : forget (CallTree.ofTemplate t') = forget (CallTree.ofTemplate t)

theorem Template.Same.of_bare {t t' : Template} (h : bareList t' = bareList t) : t.Same t' := by
  refine ⟨h, ?_⟩
  unfold CallTree.ofTemplate
  rw [← listTree_bare, ← listTree_bare, h]

theorem Template.Same.symm {t t' : Template} (h : t.Same t') : t'.Same t :=
  ⟨h.bare.symm, h.tree.symm⟩

section Arm

variable {kind : BranchKind} {scan split : Scan}

/-- **The same template is read from both ways to write an arm**, where they stand at the same
places. -/
theorem ofScan_arm_iff (a : ChainedArm kind) (w : NestedWords kind) {finish : Pos}
    (hwf : ∀ s ∈ a.segments, s.WellFormed) :
    Template.ofScan ⟨a.segments, finish⟩ = .ok template ↔
      Template.ofScan ⟨a.divided w, finish⟩ = .ok template := by
  obtain ⟨hbefore, hafter⟩ := List.forall_mem_append.mp hwf
  rw [Template.ofScan_eq_ok_iff_run, Template.ofScan_eq_ok_iff_run]
  refine exists_congr fun z => and_congr ?_ ?_
  · rw [ChainedArm.segments, ChainedArm.divided, run_append_eq_ok_iff,
      run_append_eq_ok_iff]
    refine exists_congr fun x => and_congr_right fun hx => ?_
    obtain ⟨_, nodes, Γ⟩ := x
    obtain ⟨b, bs, rfl, hb⟩ :=
      exists_innermost_of_opening hbefore a.turn_opening a.balanced_body hx
    exact run_arm_iff a w hb hafter
  · simp only [ChainedArm.segments, ChainedArm.divided, ChainedArm.before,
      List.append_assoc, List.cons_append]
    rw [startOf_append_cons]

/-- **Every arm of an accepted template is an arm of a chain**: it stands behind an opening of its
kind and balanced segments, and balanced segments and an end come behind it. -/
theorem exists_chainedArm {before after : List Segment} {arm : Action} {word again : Token}
    {ts : List Token} (hwf : ∀ s ∈ scan.segments, s.WellFormed)
    (h : Template.ofScan scan = .ok template) (hscan : scan.segments = before ++ .action arm :: after)
    (harm : arm.tokens = word :: again :: ts) (hword : word.kind = .keyword .elseWord)
    (hagain : again.kind = .keyword kind.keyword) :
    ∃ a : ChainedArm kind, a.before = before ∧ a.action = arm ∧ a.after = after := by
  obtain ⟨_, finish⟩ := scan
  obtain rfl := hscan
  obtain ⟨z, hrun, hz, -⟩ := Template.ofScan_eq_ok_iff_run.mp h
  obtain ⟨hwfBefore, hwfRest⟩ := List.forall_mem_append.mp hwf
  obtain ⟨hwfArm, hwfAfter⟩ := List.forall_mem_cons.mp hwfRest
  obtain ⟨x, hx, hrun⟩ := run_append_eq_ok_iff.mp hrun
  obtain ⟨m, hm, hrun⟩ := (run_cons_eq_ok_iff hwfArm).mp hrun
  obtain ⟨opened, _, close⟩ := arm
  cases harm
  obtain ⟨kind', pipe, Δ, hinner, hrange, hagain', -, -, rfl⟩ := hm.of_chain hword
  obtain rfl := BranchKind.keyword_inj.mp (TokenKind.keyword.inj (hagain'.symm.trans hagain))
  have huniform : Uniform x.stack := uniform_of_run (a := start) hwfBefore trivial hx
  obtain ⟨b, bs, hstack, hb, -⟩ := exists_innermost hinner
  have hhead : (kinds x.stack).head? = some kind' := by
    rw [hstack] at huniform ⊢
    rw [huniform.head?_kinds, hb]
  rw [List.head?_eq_getElem?] at hhead
  obtain ⟨front, opening, body, rfl, hopening, hbody⟩ := exists_opening hwfBefore hx hhead
  -- the arm is closed by the end that closes the structure that it is chained to
  obtain ⟨inside, ending, rest, rfl, hinside, hending⟩ :=
    exists_end (n := 0) hwfAfter (huniform.move hm) hrun hz (by
      rw [move, kinds_cons]
      exact (List.getElem?_eq_some_iff.mp hhead).1)
  exact ⟨⟨front, opening, body, opened, word, again, ts, close, inside, ending, rest, hrange,
    hopening, hbody, hword, hagain, hinside, hending⟩, rfl, rfl, rfl⟩

/-- **A chained arm is a nested structure.** In an accepted template every action of `else` and a
keyword is an arm of a chain of structures of that kind. Whether the arm stands there or the actions
that say the same, the template is accepted or not, and its syntax and its call tree are the same,
up to places. -/
theorem Template.ofScan_divided (hwf : ∀ s ∈ scan.segments, s.WellFormed) :
    (∀ t before arm after word again ts, Template.ofScan scan = .ok t →
      scan.segments = before ++ .action arm :: after → arm.tokens = word :: again :: ts →
      word.kind = .keyword .elseWord → again.kind = .keyword kind.keyword →
      ∃ a : ChainedArm kind, a.before = before ∧ a.action = arm ∧ a.after = after) ∧
    ∀ (a : ChainedArm kind) (w : NestedWords kind) (split : Scan), scan.segments = a.segments →
      (∀ s ∈ split.segments, s.WellFormed) →
      Alike split.content (Scan.content ⟨a.divided w, scan.finish⟩) →
      (∀ t, Template.ofScan scan = .ok t → ∃ t', Template.ofScan split = .ok t' ∧ t.Same t') ∧
      ∀ t', Template.ofScan split = .ok t' → ∃ t, Template.ofScan scan = .ok t ∧ t.Same t' := by
  refine ⟨fun t before arm after word again ts h hscan harm hword hagain =>
    exists_chainedArm hwf h hscan harm hword hagain, fun a w split hscan hsplit halike => ?_⟩
  obtain ⟨_, finish⟩ := scan
  obtain rfl := hscan
  have hdivided := ChainedArm.wellFormed_divided (w := w) hwf
  constructor
  · intro t ht
    obtain ⟨t', ht', hbare⟩ :=
      Template.ofScan_alike hdivided hsplit halike ((ofScan_arm_iff a w hwf).mp ht)
    exact ⟨t', ht', .of_bare hbare⟩
  · intro t' ht'
    obtain ⟨t, ht, hbare⟩ := Template.ofScan_alike hsplit hdivided halike.symm ht'
    exact ⟨t, (ofScan_arm_iff a w hwf).mpr ht, (Template.Same.of_bare hbare).symm⟩

/-- An arm that is chained to a structure in which a variable is declared. -/
theorem Template.ofScan_divided_focus :
    let A := "\x7b\x7bwith $x := .A\x7d\x7da\x7b\x7belse with .B\x7d\x7d\x7b\x7b$x\x7d\x7d\x7b\x7bend\x7d\x7d"
    let B := "\x7b\x7bwith $x := .A\x7d\x7da\x7b\x7b else \x7d\x7d\x7b\x7bwith .B\x7d\x7d\x7b\x7b$x\x7d\x7d" ++
      "\x7b\x7bend\x7d\x7d\x7b\x7bend\x7d\x7d"
    let close (column : Nat) : Token := ⟨.rightDelim, ⟨1, column⟩, false⟩
    let word (k : Keyword) (column : Nat) : Token := ⟨.keyword k, ⟨1, column⟩, false⟩
    let field (name : String) (column : Nat) : Token := ⟨.field name, ⟨1, column⟩, true⟩
    let a : ChainedArm .focus :=
      { front := []
        opening := .action ⟨⟨1, 1⟩, [word .withWord 3, ⟨.var "$x", ⟨1, 8⟩, true⟩,
          ⟨.declare, ⟨1, 11⟩, true⟩, field "A" 14], close 16⟩
        body := [.text ⟨1, 18⟩ "a"]
        opened := ⟨1, 19⟩
        word := word .elseWord 21
        again := ⟨.keyword .withWord, ⟨1, 26⟩, true⟩
        ts := [field "B" 31]
        close := close 33
        inside := [.action ⟨⟨1, 35⟩, [⟨.var "$x", ⟨1, 37⟩, false⟩], close 39⟩]
        ending := .action ⟨⟨1, 41⟩, [word .endWord 43], close 46⟩
        rest := []
        kind_ne_range := nofun
        turn_opening := rfl
        balanced_body := rfl
        kind_word := rfl
        kind_again := rfl
        balanced_inside := rfl
        turn_ending := rfl }
    let w : NestedWords .focus :=
      { dividing := ⟨⟨1, 19⟩, [⟨.keyword .elseWord, ⟨1, 22⟩, true⟩], ⟨.rightDelim, ⟨1, 27⟩, true⟩⟩
        again := word .withWord 31
        close := close 38
        closing := ⟨⟨1, 53⟩, [word .endWord 55], close 58⟩
        isLone_dividing := ⟨⟨_, rfl, rfl⟩, rfl⟩
        kind_again := rfl
        kind_close := rfl
        isLone_closing := ⟨⟨_, rfl, rfl⟩, rfl⟩ }
    Scan.ofSource A = .ok ⟨a.segments, ⟨1, 48⟩⟩ ∧ ∃ split, Scan.ofSource B = .ok split ∧
      Alike split.content (Scan.content ⟨a.divided w, ⟨1, 48⟩⟩) ∧
      ∃ t t', Template.ofScan ⟨a.segments, ⟨1, 48⟩⟩ = .ok t ∧ Template.ofScan split = .ok t' ∧
        t.Same t' := by
  intro A B close word field a w
  have hscan : Scan.ofSource A = .ok ⟨a.segments, ⟨1, 48⟩⟩ := by decide +kernel
  obtain ⟨t, ht, -⟩ := exists_ok_of_any (x := Template.ofScan ⟨a.segments, ⟨1, 48⟩⟩)
    (p := fun _ => true) (by decide +kernel)
  obtain ⟨split, hsplit, halike⟩ := exists_ok_of_any (x := Scan.ofSource B) (p := fun split =>
    decide (split.content.map Token.bare = (Scan.content ⟨a.divided w, ⟨1, 48⟩⟩).map Token.bare))
    (by decide +kernel)
  have halike := of_decide_eq_true halike
  obtain ⟨t', ht', hsame⟩ := ((Template.ofScan_divided (Scan.wellFormed_of_ofSource hscan)).2 a w
    split rfl (Scan.wellFormed_of_ofSource hsplit) halike).1 t ht
  exact ⟨hscan, split, hsplit, halike, t, t', ht, ht', hsame⟩

end Arm

end Template

end Fieldwise
