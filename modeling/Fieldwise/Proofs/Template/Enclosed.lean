import Fieldwise.Proofs.Template.Nesting

/-!
# A template inside a structure

Segments that are a template of their own are also the body of a structure that stands around them.
What they add to the template they then add to that body, and nothing else changes, as long as they
are accepted there too.

* `Assembly.inside` : an assembly inside a structure.
* `Assembly.inside_move` : a move inside a structure.
* `Assembly.run_inside` : a run inside a structure.
* `Template.ofScan_enclosed` : the template of an opening, of segments that are a template, and of
  an end.
-/

set_option autoImplicit false

namespace Fieldwise

open Grammar

namespace Assembly

variable {a z w : Assembly} {f : OpenBranch} {finish next : Pos} {s : Segment} {m : Move}

/-- The assembly inside a structure, whose body is the nodes outside all other structures. -/
def inside (f : OpenBranch) (a : Assembly) : Assembly :=
  ⟨a.stack ++ [{ f with body := a.nodes }], [], a.scope⟩

theorem inside_extend (hf : f.alternative = none) (node : Node) (Δ : Scope) (a : Assembly) :
    (a.inside f).extend [node] Δ = (a.extend [node] Δ).inside f := by
  obtain ⟨_ | ⟨b, bs⟩, nodes, Γ⟩ := a
  · simp [inside, extend, OpenBranch.addAll, hf]
  · rfl

/-- **A move inside a structure** is the move of the segment on its own. -/
theorem inside_move (hf : f.alternative = none) (ha : Uniform a.stack)
    (hm : IsMove a.view next s m) : (a.inside f).move m = (a.move m).inside f := by
  cases hm with
  | text | action | template | templateWith | leave | skip => exact inside_extend hf _ _ a
  | enter | chain => rfl
  | divide hinner =>
    obtain ⟨b, bs, hstack, -, -⟩ := exists_innermost hinner
    obtain ⟨stack, nodes, Γ⟩ := a
    subst hstack
    rfl
  | close hinner =>
    obtain ⟨_ | ⟨b, bs⟩, nodes, Γ⟩ := a
    · exact absurd rfl hinner
    · -- what is closed ends above the structure outside
      obtain ⟨node, Δ, rest, -, -, hshut⟩ := exists_shut ha.kinds_ne_nil
      have halone : shut b bs nodes = (⟨rest, nodes, Δ⟩ : Assembly).extend [node] Δ := by
        simpa [add_eq_extend] using hshut [] nodes
      have hinside : shut b (bs ++ [{ f with body := nodes }]) [] =
          ((⟨rest, nodes, Δ⟩ : Assembly).inside f).extend [node] Δ := by
        rw [hshut, add_eq_extend]
        rfl
      show shut b (bs ++ [{ f with body := nodes }]) [] = (shut b bs nodes).inside f
      rw [hinside, halone, inside_extend hf]

/-- **A run inside a structure** comes to what the run on its own comes to, if both come to an
end. -/
theorem run_inside (hf : f.alternative = none) : ∀ {segments : List Segment} {a : Assembly},
    (∀ s ∈ segments, s.WellFormed) → Uniform a.stack → run finish a segments = .ok z →
    run finish (a.inside f) segments = .ok w → w = z.inside f
  | [], _, _, _, h, h' => by
    cases h
    cases h'
    rfl
  | s :: rest, a, hwf, ha, h, h' => by
    obtain ⟨hs, hrest⟩ := List.forall_mem_cons.mp hwf
    obtain ⟨m, hm, h⟩ := (run_cons_eq_ok_iff hs).mp h
    obtain ⟨m', hm', h'⟩ := (run_cons_eq_ok_iff hs).mp h'
    -- the variables in scope are the same, and a segment takes nothing else from around it
    obtain rfl := hm'.unique hm rfl
    rw [inside_move hf ha hm] at h'
    exact run_inside hf hrest (ha.move hm) h h'

end Assembly

open Assembly in
/-- **A template inside a structure.** Where an opening, the segments of a template and an end are
accepted, and the opening declares no variable, the template is the body of a structure and there is
nothing else. -/
theorem Template.ofScan_enclosed {kind : BranchKind} {opened finish : Pos} {word close : Token}
    {ts : List Token} {segments : List Segment} {ending : Action} {pipe : Pipeline Operand}
    {template outer : Template}
    (hwf : ∀ s ∈ .action ⟨opened, word :: ts, close⟩ :: (segments ++ [.action ending]), s.WellFormed)
    (hword : word.kind = .keyword kind.keyword)
    (hpipe : IsPipeline (.opening kind) 1 [rootVariable] ts pipe [rootVariable])
    (hending : ending.IsLone .endWord) (h : Template.ofScan ⟨segments, ending.opened⟩ = .ok template)
    (houter : Template.ofScan ⟨.action ⟨opened, word :: ts, close⟩ :: (segments ++ [.action ending]),
      finish⟩ = .ok outer) :
    outer = ⟨opened, [.branch kind opened pipe template none]⟩ := by
  obtain ⟨hopening, hrest⟩ := List.forall_mem_cons.mp hwf
  obtain ⟨hsegments, -⟩ := List.forall_mem_append.mp hrest
  obtain ⟨z, hrun, hz, rfl⟩ := Template.ofScan_eq_ok_iff_run.mp h
  obtain ⟨y, hrun', hy, rfl⟩ := Template.ofScan_eq_ok_iff_run.mp houter
  obtain ⟨m, hm, hrun'⟩ := (run_cons_eq_ok_iff hopening).mp hrun'
  obtain ⟨-, pipe', Δ, hpipe', rfl⟩ := hm.of_opening hword
  obtain ⟨rfl, rfl⟩ := hpipe'.unique hpipe
  obtain ⟨w, hw, hrun'⟩ := run_append_eq_ok_iff.mp hrun'
  obtain ⟨m, hm, hrun'⟩ := (run_cons_eq_ok_iff hending.wellFormed).mp hrun'
  obtain rfl := Move.eq_close (hm.turn.trans hending.turn_end)
  -- behind the opening the structure stands around an assembly in which nothing is read yet
  have hinside : run ending.opened (start.inside ⟨kind, opened, pipe',
      startOf finish (segments ++ [.action ending]), [], none, false, [rootVariable]⟩) segments =
        .ok w := hw
  have hstart : Uniform start.stack := trivial
  obtain rfl := run_inside rfl hsegments hstart hrun hinside
  obtain ⟨_, nodes, Γ⟩ := z
  obtain rfl := hz
  obtain rfl := Except.ok.inj hrun'
  have hnext : startOf ending.opened segments = startOf finish (segments ++ [.action ending]) := by
    cases segments <;> rfl
  rw [hnext]
  rfl

end Fieldwise
