import Fieldwise.Proofs.Template.Assembly

/-!
# The reader accepts exactly the grammar

Segments are read one after another into an assembly, while the grammar describes lists and
structures as wholes. The two meet in runs: reading what the grammar derives as items is
extending the assembly, and reading what it derives as the tail of a structure is shutting the
structure.

* `readsItems_of_run` and the two theorems with it : a run that comes to its end reads items, up to
  a marker, and structures with their tails. The induction is on the number of segments left.
* `run_of_isItems` and the three theorems with it : a derivation is read. The induction is on the
  derivation.
* `Template.ofScan_eq_ok_iff_derives` : a template is read from a source if and only if the grammar
  derives it from the tokens of the source.
-/

set_option autoImplicit false

namespace Fieldwise

open Grammar

namespace Assembly

variable {a z : Assembly} {finish : Pos} {act : Action} {segments : List Segment} {ts : List Token}

theorem startsAt_startOf {finish : Pos} {segments : List Segment} {ts : List Token}
    (h : Scan.Spells finish segments ts) : StartsAt ts (startOf finish segments) := by
  rw [← h.tokens_eq]
  cases segments with
  | nil => rfl
  | cons s rest => cases s <;> rfl

/-! ## What is read is derived -/

/-- Nothing is left, or what comes next divides or ends a structure. -/
def AtMarker (segments : List Segment) : Prop :=
  ∀ s ∈ segments.head?, ∃ act t rest, s = .action act ∧ act.tokens = t :: rest ∧ IsMarker t

/-- The segments begin with items, and reading them leads from `a` to the assembly that the rest
is read with, up to `z`. -/
def ReadsItems (finish : Pos) (z a : Assembly) (segments : List Segment) (ts : List Token) :
    Prop :=
  ∃ us rest segments' nodes Δ, ts = us ++ rest ∧ Scan.Spells finish segments' rest ∧
    segments'.length ≤ segments.length ∧ AtMarker segments' ∧
    IsItems a.stack.length a.inRange a.scope us nodes Δ ∧
    run finish (a.extend nodes Δ) segments' = .ok z

theorem ReadsItems.cons {us : List Token} {node : Node} {Θ : Scope} {longer : List Segment}
    (hitem : IsItem a.stack.length a.inRange a.scope us node Θ)
    (hlen : segments.length ≤ longer.length)
    (h : ReadsItems finish z (a.extend [node] Θ) segments ts) :
    ReadsItems finish z a longer (us ++ ts) := by
  obtain ⟨vs, rest, segments', nodes, Δ, rfl, hspells, hlen', hmark, hitems, hrun⟩ := h
  simp only [length_stack_extend, inRange_extend, scope_extend] at hitems
  rw [extend_extend] at hrun
  exact ⟨us ++ vs, rest, segments', node :: nodes, Δ, by rw [List.append_assoc], hspells,
    Nat.le_trans hlen' hlen, hmark, .cons hitem hitems, hrun⟩

/-- A structure that is divided already can only be ended where its second list stops. -/
theorem ends_of_run {b : OpenBranch} {bs : List OpenBranch} {nodes : List Node} {Γ : Scope}
    (hs : Scan.Spells finish segments ts) (hmark : AtMarker segments)
    (h : run finish ⟨b :: bs, nodes, Γ⟩ segments = .ok z) (hz : z.stack = [])
    (hb : b.alternative ≠ none) :
    ∃ us pos rest segments', ts = us ++ rest ∧ IsWord .endWord pos us ∧
      Scan.Spells finish segments' rest ∧ segments'.length < segments.length ∧
      run finish (shut b bs nodes) segments' = .ok z := by
  cases segments with
  | nil =>
    cases h
    cases hz
  | cons s segments =>
    obtain ⟨⟨opened, _, close⟩, t, rest, rfl, hact, ht⟩ := hmark s rfl
    cases hact
    have hwf : Action.WellFormed ⟨opened, t :: rest, close⟩ := hs.wellFormed_head
    obtain ⟨ts, rfl, hrest⟩ := hs.cons
    rw [run] at h
    split at h
    · cases h
    next a₁ hact =>
    rcases marker_cases rfl ht hact with ⟨hend, rfl, rfl⟩ | ⟨_, hnone, _⟩ | ⟨_, hnone, _⟩
    · exact ⟨_, opened, ts, segments, rfl, isWord_tokens opened hend hwf.kind_close, hrest,
        Nat.lt_succ_self _, h⟩
    · exact absurd hnone hb
    · exact absurd hnone hb

mutual

/-- A run to an assembly without open structures begins with items, up to a marker. -/
theorem readsItems_of_run : ∀ (segments : List Segment) {ts : List Token} {a : Assembly},
    Scan.Spells finish segments ts → run finish a segments = .ok z → z.stack = [] →
    ReadsItems finish z a segments ts
  | [], ts, a, hs, h, _ =>
    ⟨[], ts, [], [], a.scope, rfl, hs, Nat.le_refl _, nofun, .nil, by rwa [extend_nil]⟩
  | .text pos s :: segments, _, a, hs, h, hz => by
    obtain ⟨ts, rfl, hrest⟩ := hs.cons
    have h : run finish (a.add (.text pos s)) segments = .ok z := h
    rw [add_eq_extend] at h
    exact .cons (.text rfl) (Nat.le_succ _) (readsItems_of_run segments hrest h hz)
  | .action act :: segments, _, a, hs, h, hz => by
    have hwf : act.WellFormed := hs.wellFormed_head
    obtain ⟨ts, rfl, hrest⟩ := hs.cons
    have hrun := h
    rw [run] at h
    split at h
    · cases h
    next a₁ hact =>
    rcases action_cases hwf hact with ⟨node, Δ, hitem, rfl⟩ | ⟨kind, t, ps, htokens, hk, hopen⟩ |
      ⟨t, rest, htokens, ht⟩
    · exact .cons hitem (Nat.le_succ _) (readsItems_of_run segments hrest h hz)
    · obtain ⟨opened, _, close⟩ := act
      cases htokens
      obtain ⟨us, rest, segments', pipe, body, alternative, rfl, hrest', hlen, hstructure, hrun'⟩ :=
        readsStructure_of_run segments hrest hopen hwf.kind_close
          (fun t ht => hwf.isInner t (List.mem_cons_of_mem _ ht)) h hz
      rw [shut_of_not_chained rfl, toNode_withTail] at hrun'
      have hrun' : run finish (a.add (.branch kind opened pipe body alternative)) segments' =
          .ok z := hrun'
      rw [add_eq_extend] at hrun'
      have hitem : IsItem a.stack.length a.inRange a.scope
          (⟨.leftDelim, opened, false⟩ :: t :: (ps ++ close :: us))
          (.branch kind opened pipe body alternative) a.scope := .branch rfl hk hstructure
      have hlonger :
          segments'.length ≤ (Segment.action ⟨opened, t :: ps, close⟩ :: segments).length :=
        Nat.le_succ_of_le (Nat.le_of_lt hlen)
      have hreads := ReadsItems.cons hitem hlonger (readsItems_of_run segments' hrest' hrun' hz)
      simpa [Segment.tokens] using hreads
    · exact ⟨[], _, _, [], a.scope, rfl, hs, Nat.le_refl _,
        fun s hs => ⟨act, t, rest, (Option.some.inj hs).symm, htokens, ht⟩, .nil,
        by rwa [extend_nil]⟩
termination_by segments => 2 * segments.length

/-- Behind the action that opens a structure, such a run reads the structure up to its end. -/
theorem readsStructure_of_run : ∀ (segments : List Segment) {ts ps : List Token}
    {a a₁ : Assembly} {kind : BranchKind} {chained : Bool} {pos : Pos} {close : Token},
    Scan.Spells finish segments ts →
    a.openBranch kind chained pos (startOf finish segments) close ps = .ok a₁ →
    close.kind = .rightDelim → (∀ t ∈ ps, t.kind.isInner = true) →
    run finish a₁ segments = .ok z → z.stack = [] →
    ∃ us rest segments' pipe body alternative, ts = us ++ rest ∧
      Scan.Spells finish segments' rest ∧ segments'.length < segments.length ∧
      IsStructure kind a.stack.length a.inRange a.scope (ps ++ close :: us) pipe body alternative ∧
      run finish (shut (.withTail alternative
        ⟨kind, pos, pipe, body.pos, body.nodes.reverse, none, chained, a.scope⟩) a.stack a.nodes)
        segments' = .ok z
  | segments, ts, ps, a, a₁, kind, chained, pos, close, hs, hopen, hclose, hinner, h, hz => by
    obtain ⟨hd, pipe, Δ, hp, rfl⟩ := (openBranch_eq_ok_iff hclose hinner).mp hopen
    obtain ⟨us, rest, segments', nodes, Θ, rfl, hrest, hlen, hmark, hitems, hrun⟩ :=
      readsItems_of_run segments hs h hz
    obtain ⟨vs, rest', segments'', alternative, rfl, hrest', hlen', htail, hrun'⟩ :=
      readsTail_of_run segments' hrest hmark hrun hz rfl
    have hpos : StartsAt (us ++ vs) (startOf finish segments) := by
      refine StartsAt.of_append ?_ (by rw [List.append_assoc]; exact startsAt_startOf hs)
      exact fun hnil => htail.ne_nil (List.append_eq_nil_iff.mp hnil).2
    rw [inRange_cons] at hitems htail
    rw [OpenBranch.kind_addAll] at htail
    refine ⟨us ++ vs, rest', segments'', pipe, ⟨_, nodes⟩, alternative, by rw [List.append_assoc],
      hrest', by omega, .mk hd hp hclose hitems htail hpos, ?_⟩
    simpa [OpenBranch.addAll] using hrun'
termination_by segments => 2 * segments.length + 1

/-- At a marker behind the body of a structure, such a run reads the tail of the structure. -/
theorem readsTail_of_run : ∀ (segments : List Segment) {ts : List Token} {b : OpenBranch}
    {bs : List OpenBranch} {nodes : List Node} {Γ : Scope}, Scan.Spells finish segments ts →
    AtMarker segments → run finish ⟨b :: bs, nodes, Γ⟩ segments = .ok z → z.stack = [] →
    b.alternative = none →
    ∃ us rest segments' alternative, ts = us ++ rest ∧ Scan.Spells finish segments' rest ∧
      segments'.length < segments.length ∧
      IsTail b.kind (bs.length + 1) ((⟨b :: bs, nodes, Γ⟩ : Assembly).inRange) Γ us alternative ∧
      run finish (shut (b.withTail alternative) bs nodes) segments' = .ok z
  | [], _, _, _, _, _, _, _, h, hz, _ => by
    cases h
    cases hz
  | s :: segments, _, b, bs, nodes, Γ, hs, hmark, h, hz, hb => by
    obtain ⟨⟨opened, ts, close⟩, t, rest, rfl, hact, ht⟩ := hmark s rfl
    cases hact
    have hwf : Action.WellFormed ⟨opened, t :: rest, close⟩ := hs.wellFormed_head
    obtain ⟨ts, rfl, hrest⟩ := hs.cons
    rw [run] at h
    split at h
    · cases h
    next a₁ hact =>
    rcases marker_cases rfl ht hact with ⟨hend, rfl, rfl⟩ | ⟨helse, _, rfl, rfl⟩ |
      ⟨helse, _, hrange, again, ps, rfl, hagain, hopen⟩
    · refine ⟨_, ts, segments, none, rfl, hrest, Nat.lt_succ_self _, ?_, ?_⟩
      · exact .plain (isWord_tokens opened hend hwf.kind_close)
      · rwa [withTail_none hb]
    · have hword := isWord_tokens opened helse hwf.kind_close
      obtain ⟨us, rest, segments', others, Δ, rfl, hrest', hlen, hmark', hitems, hrun⟩ :=
        readsItems_of_run segments hrest h hz
      obtain ⟨es, endPos, rest', segments'', rfl, hend, hrest'', hlen', hrun'⟩ :=
        ends_of_run hrest' hmark' hrun hz (by simp [OpenBranch.addAll])
      have hpos : StartsAt (us ++ es) (startOf finish segments) := by
        refine StartsAt.of_append ?_ (by rw [List.append_assoc]; exact startsAt_startOf hrest)
        cases hend
        simp
      refine ⟨_ ++ (us ++ es), rest', segments'', some ⟨startOf finish segments, others⟩,
        by simp only [List.append_assoc], hrest'', ?_, .divided hword hitems hend hpos, ?_⟩
      · rw [List.length_cons]
        omega
      · simpa [OpenBranch.addAll, OpenBranch.withTail] using hrun'
    · obtain ⟨us, rest', segments', pipe, body, alternative, rfl, hrest', hlen, hstructure, hrun⟩ :=
        readsStructure_of_run segments hrest hopen hwf.kind_close
          (fun t ht => hwf.isInner t (by simp [ht])) h hz
      rw [shut_of_chained rfl, toNode_withTail] at hrun
      refine ⟨(Segment.action ⟨opened, t :: again :: ps, close⟩).tokens ++ us, rest', segments', _,
        by rw [List.append_assoc], hrest', Nat.lt_succ_of_lt hlen, ?_, hrun⟩
      have htail : IsTail b.kind (bs.length + 1) ((⟨b :: bs, nodes, Γ⟩ : Assembly).inRange) Γ
          (⟨.leftDelim, opened, false⟩ :: t :: again :: (ps ++ close :: us))
          (some ⟨opened, [.branch b.kind opened pipe body alternative]⟩) :=
        .chained rfl helse hagain hrange hstructure
      simpa [Segment.tokens] using htail
termination_by segments => 2 * segments.length

end

/-! ## What is derived is read -/

theorem run_action {segments : List Segment}
    (h : a.action act (startOf finish segments) = .ok z) :
    run finish a (.action act :: segments) = run finish z segments := by
  rw [run, segment, h]

/-- A source whose tokens start with a lone word starts with the action of this word. -/
theorem of_isWord {segments : List Segment} {us rest : List Token} {k : Keyword} {pos : Pos}
    (hs : Scan.Spells finish segments (us ++ rest)) (h : IsWord k pos us) :
    ∃ word close segments', segments = .action ⟨pos, [word], close⟩ :: segments' ∧
      word.kind = .keyword k ∧ Scan.Spells finish segments' rest := by
  cases h with
  | @mk opening word closing ho hw hc =>
    have hinner : ∀ t ∈ [word], t.kind.isInner = true := by simp [hw, TokenKind.isInner]
    obtain ⟨segments', rfl, hrest⟩ := hs.of_action ho hinner hc
    exact ⟨word, closing, segments', rfl, hw, hrest⟩

mutual

theorem run_of_isItem : ∀ {d : Nat} {loop : Bool} {Γ Δ : Scope} {us : List Token} {node : Node},
    IsItem d loop Γ us node Δ → ∀ {a : Assembly} {segments : List Segment} {rest : List Token},
    Scan.Spells finish segments (us ++ rest) → a.stack.length = d → a.inRange = loop →
    a.scope = Γ →
    ∃ segments', Scan.Spells finish segments' rest ∧
      run finish a segments = run finish (a.extend [node] Δ) segments'
  | _, _, _, _, _, _, .text ht, a, _, _, hs, hd, hl, hΓ => by
    subst hd hl hΓ
    obtain ⟨segments, rfl, hrest⟩ := hs.of_text ht
    refine ⟨segments, hrest, ?_⟩
    rw [← add_eq_extend]
    rfl
  | _, _, _, _, _, _, .action ho hp hc, a, _, rest, hs, hd, hl, hΓ => by
    subst hd hl hΓ
    rw [List.cons_append, List.append_assoc] at hs
    obtain ⟨segments, rfl, hrest⟩ := hs.of_action ho hp.isInner hc
    exact ⟨segments, hrest, run_action (action_of_isPipeline hc hp)⟩
  | _, _, _, _, _, _, @IsItem.template _ _ _ opening word title closing name ho hw ht hc, a, _,
      rest, hs, hd, hl, hΓ => by
    subst hd hl hΓ
    have hinner : ∀ t ∈ [word, title], t.kind.isInner = true := by simp [hw, ht, TokenKind.isInner]
    obtain ⟨segments, rfl, hrest⟩ := hs.of_action ho hinner hc
    obtain ⟨_, wpos, wspace⟩ := word
    obtain ⟨_, tpos, tspace⟩ := title
    cases hw
    cases ht
    exact ⟨segments, hrest, run_action (congrArg _ (add_eq_extend ..))⟩
  | _, _, _, _, _, _, @IsItem.templateWith _ _ _ Δ opening word title closing ts name pipe ho hw ht
      hp hc, a, _, rest, hs, hd, hl, hΓ => by
    subst hd hl hΓ
    have hinner : ∀ t ∈ word :: title :: ts, t.kind.isInner = true := by
      have := hp.isInner
      simp_all [TokenKind.isInner]
    simp only [List.cons_append, List.append_assoc] at hs
    obtain ⟨segments, rfl, hrest⟩ := hs.of_action ho hinner hc
    obtain ⟨_, wpos, wspace⟩ := word
    cases hw
    exact ⟨segments, hrest, run_action (template_of_isPipeline hc ht hp)⟩
  | _, _, _, _, _, _, .leave hword, a, _, rest, hs, hd, hl, hΓ => by
    subst hd hΓ
    obtain ⟨⟨_, pos, space⟩, close, segments, rfl, hw, hrest⟩ := of_isWord hs hword
    cases hw
    exact ⟨segments, hrest, run_action (jump_of_inRange .breakWord .leave _ hl)⟩
  | _, _, _, _, _, _, .skip hword, a, _, rest, hs, hd, hl, hΓ => by
    subst hd hΓ
    obtain ⟨⟨_, pos, space⟩, close, segments, rfl, hw, hrest⟩ := of_isWord hs hword
    cases hw
    exact ⟨segments, hrest, run_action (jump_of_inRange .continueWord .skip _ hl)⟩
  | _, _, _, _, _, _, @IsItem.branch kind _ _ _ opening word ts pipe body alternative ho hw h, a,
      segments, rest, hs, hd, hl, hΓ => by
    obtain ⟨ps, closing, more, rfl, hc, hinner, hread⟩ := run_of_isStructure h
    have hword : ∀ t ∈ word :: ps, t.kind.isInner = true :=
      List.forall_mem_cons.mpr ⟨by rw [hw]; rfl, hinner⟩
    have hs : Scan.Spells finish segments
        (opening :: (word :: ps ++ closing :: (more ++ rest))) := by simpa using hs
    obtain ⟨segments, rfl, hrest⟩ := hs.of_action ho hword hc
    obtain ⟨a₁, segments', hopen, hrest', hrun⟩ := hread false opening.pos hrest hd hl hΓ
    subst hd hl hΓ
    refine ⟨segments', hrest', ?_⟩
    rw [run_action (action_of_openBranch hw hopen), hrun, shut_of_not_chained rfl, toNode_withTail,
      ← add_eq_extend]
    rfl

/-- Reading items extends the assembly by their nodes. -/
theorem run_of_isItems : ∀ {d : Nat} {loop : Bool} {Γ Δ : Scope} {us : List Token}
    {nodes : List Node}, IsItems d loop Γ us nodes Δ →
    ∀ {a : Assembly} {segments : List Segment} {rest : List Token},
    Scan.Spells finish segments (us ++ rest) → a.stack.length = d → a.inRange = loop →
    a.scope = Γ →
    ∃ segments', Scan.Spells finish segments' rest ∧
      run finish a segments = run finish (a.extend nodes Δ) segments'
  | _, _, _, _, _, _, .nil, a, segments, _, hs, hd, hl, hΓ =>
    ⟨segments, hs, by rw [← hΓ, extend_nil]⟩
  | _, _, _, _, _, _, .cons h hmore, a, _, rest, hs, hd, hl, hΓ => by
    rw [List.append_assoc] at hs
    obtain ⟨segments', hs', hrun⟩ := run_of_isItem h hs hd hl hΓ
    obtain ⟨segments'', hs'', hrun'⟩ := run_of_isItems hmore hs'
      ((length_stack_extend ..).trans hd) ((inRange_extend ..).trans hl) (scope_extend ..)
    refine ⟨segments'', hs'', ?_⟩
    rw [hrun, hrun', extend_extend]
    rfl

/-- A control structure is read from its pipeline on, whichever keyword opened it. -/
theorem run_of_isStructure : ∀ {kind : BranchKind} {d : Nat} {loop : Bool} {Γ : Scope}
    {us : List Token} {pipe : Pipeline Operand} {body : NodeList Node}
    {alternative : Option (NodeList Node)}, IsStructure kind d loop Γ us pipe body alternative →
    ∃ ps closing more, us = ps ++ closing :: more ∧ closing.kind = .rightDelim ∧
      (∀ t ∈ ps, t.kind.isInner = true) ∧
      ∀ {a : Assembly} {segments : List Segment} {rest : List Token} (chained : Bool) (pos : Pos),
        Scan.Spells finish segments (more ++ rest) → a.stack.length = d → a.inRange = loop →
        a.scope = Γ →
        ∃ a₁ segments',
          a.openBranch kind chained pos (startOf finish segments) closing ps = .ok a₁ ∧
          Scan.Spells finish segments' rest ∧
          run finish a₁ segments = run finish (shut (.withTail alternative
            ⟨kind, pos, pipe, body.pos, body.nodes.reverse, none, chained, a.scope⟩)
            a.stack a.nodes) segments'
  | _, _, _, _, _, _, _, _, @IsStructure.mk kind _ _ _ Δ Θ closing ps bs rs pipe nodes bodyPos
      alternative hd hp hc hb hr hpos => by
    refine ⟨ps, closing, bs ++ rs, rfl, hc, hp.isInner, ?_⟩
    intro a segments rest chained pos hs hd' hl hΓ
    let b : OpenBranch := ⟨kind, pos, pipe, startOf finish segments, [], none, chained, a.scope⟩
    have hopen : a.openBranch kind chained pos (startOf finish segments) closing ps =
        .ok ⟨b :: a.stack, a.nodes, Δ⟩ :=
      (openBranch_eq_ok_iff hc hp.isInner).mpr
        ⟨hd'.symm ▸ hd, pipe, Δ, by rw [hd', hΓ]; exact hp, rfl⟩
    have hrange : (⟨b :: a.stack, a.nodes, Δ⟩ : Assembly).inRange = _ :=
      (inRange_cons ..).trans (congrArg (· || decide (kind = .range)) hl)
    have hstart : startOf finish segments = bodyPos := by
      refine StartsAt.unique ?_ hpos
      refine StartsAt.of_append ?_ (startsAt_startOf hs)
      exact fun hnil => hr.ne_nil (List.append_eq_nil_iff.mp hnil).2
    rw [List.append_assoc] at hs
    obtain ⟨segments', hs', hrun⟩ :=
      run_of_isItems hb (a := ⟨b :: a.stack, a.nodes, Δ⟩) hs (congrArg (· + 1) hd') hrange rfl
    obtain ⟨segments'', hs'', hrun'⟩ :=
      run_of_isTail hr (b := b.addAll nodes) a.nodes hs' rfl (congrArg (· + 1) hd') hrange rfl
    refine ⟨_, segments'', hopen, hs'', hrun.trans (hrun'.trans ?_)⟩
    subst hstart
    simp [b, OpenBranch.addAll]

/-- Reading the tail of a structure shuts the structure. -/
theorem run_of_isTail : ∀ {kind : BranchKind} {d : Nat} {loop : Bool} {Γ : Scope}
    {us : List Token} {alternative : Option (NodeList Node)},
    IsTail kind d loop Γ us alternative → ∀ {b : OpenBranch} {bs : List OpenBranch}
    (nodes : List Node) {segments : List Segment} {rest : List Token},
    Scan.Spells finish segments (us ++ rest) → b.kind = kind → bs.length + 1 = d →
    (⟨b :: bs, nodes, Γ⟩ : Assembly).inRange = loop → b.alternative = none →
    ∃ segments', Scan.Spells finish segments' rest ∧
      run finish ⟨b :: bs, nodes, Γ⟩ segments =
        run finish (shut (b.withTail alternative) bs nodes) segments'
  | _, _, _, _, _, _, .plain he, b, bs, nodes, _, rest, hs, hk, hd, hl, hb => by
    obtain ⟨word, close, segments, rfl, hw, hrest⟩ := of_isWord hs he
    rw [withTail_none hb]
    exact ⟨segments, hrest, run_action (action_of_end hw)⟩
  | _, _, _, Γ, _, _, @IsTail.divided _ _ _ _ Δ ls os es others _ _ pos hl ho he hpos, b, bs, nodes,
      _, rest, hs, hk, hd, hloop, hb => by
    rw [List.append_assoc] at hs
    obtain ⟨word, close, segments, rfl, hw, hs⟩ := of_isWord hs hl
    let b' : OpenBranch := { b with alternative := some (startOf finish segments, []) }
    have hstart : startOf finish segments = pos := by
      refine StartsAt.unique (StartsAt.of_append ?_ (startsAt_startOf hs)) hpos
      cases he
      simp
    rw [List.append_assoc] at hs
    obtain ⟨segments', hs', hrun⟩ :=
      run_of_isItems ho (a := ⟨b' :: bs, nodes, Γ⟩) hs hd hloop rfl
    obtain ⟨word', close', segments', rfl, hw', hs'⟩ := of_isWord hs' he
    refine ⟨segments', hs', (run_action (action_of_else hw hb)).trans (hrun.trans
      ((run_action (action_of_end hw')).trans ?_))⟩
    subst hstart
    simp [b', OpenBranch.addAll, OpenBranch.withTail]
  | _, _, _, Γ, _, _, @IsTail.chained kind _ _ _ opening word again ts pipe body alternative ho hw
      hagain hrange h, b, bs, nodes, segments, rest, hs, hk, hd, hloop, hb => by
    obtain ⟨ps, closing, more, rfl, hc, hinner, hread⟩ := run_of_isStructure h
    have hwords : ∀ t ∈ word :: again :: ps, t.kind.isInner = true :=
      List.forall_mem_cons.mpr ⟨by rw [hw]; rfl,
        List.forall_mem_cons.mpr ⟨by rw [hagain]; rfl, hinner⟩⟩
    have hs : Scan.Spells finish segments
        (opening :: (word :: again :: ps ++ closing :: (more ++ rest))) := by simpa using hs
    obtain ⟨segments, rfl, hrest⟩ := hs.of_action ho hwords hc
    obtain ⟨a₁, segments', hopen, hrest', hrun⟩ :=
      hread (a := ⟨b :: bs, nodes, Γ⟩) true opening.pos hrest hd hloop rfl
    refine ⟨segments', hrest', ?_⟩
    subst hk
    rw [run_action (action_of_chained hw hagain hrange hb hopen), hrun, shut_of_chained rfl,
      toNode_withTail]
    rfl

end

end Assembly

section Template

open Assembly

variable {scan : Scan} {template : Template}

/-- What is read from well-formed segments is derived from their tokens. -/
theorem Template.derives_of_ofScan (hs : Scan.Spells scan.finish scan.segments scan.tokens)
    (h : Template.ofScan scan = .ok template) : Derives scan.tokens template := by
  unfold Template.ofScan at h
  split at h
  · cases h
  next a hrun =>
  obtain ⟨nodes, hnodes, rfl⟩ := map_eq_ok_iff.mp h
  unfold finished at hnodes
  split at hnodes
  · next hstack =>
    cases hnodes
    obtain ⟨us, rest, segments', nodes, Δ, htokens, hrest, _, hmark, hitems, hrun'⟩ :=
      readsItems_of_run scan.segments hs hrun hstack
    cases segments' with
    | nil =>
      cases hrun'
      refine ⟨us, ⟨.eof, scan.finish, false⟩, Δ, ?_, rfl, startsAt_startOf hs, ?_⟩
      · rw [htokens, ← hrest.tokens_eq]
        rfl
      · simpa [extend, start, inRange] using hitems
    | cons s segments' =>
      obtain ⟨act, t, inside, rfl, hact, ht⟩ := hmark s rfl
      rw [run] at hrun'
      split at hrun'
      · cases hrun'
      next a₁ hstep => exact absurd hstep (action_marker_of_nil hact ht)
  · cases hnodes

/-- What is derived from the tokens of well-formed segments is read from them. -/
theorem Template.ofScan_of_derives (hs : Scan.Spells scan.finish scan.segments scan.tokens)
    (h : Derives scan.tokens template) : Template.ofScan scan = .ok template := by
  obtain ⟨items, last, Γ, htokens, hlast, hpos, hitems⟩ := h
  obtain ⟨pos, nodes⟩ := template
  obtain rfl : pos = startOf scan.finish scan.segments :=
    StartsAt.unique hpos (startsAt_startOf hs)
  rw [htokens] at hs
  obtain ⟨segments', hrest, hrun⟩ := run_of_isItems hitems (a := start) hs rfl rfl rfl
  have hnil : segments' = [] := by
    cases segments' with
    | nil => rfl
    | cons s segments' =>
      obtain ⟨ts, hts, _⟩ := hrest.cons
      cases s with
      | text pos s => cases hts; cases hlast
      | action act =>
        have hhead := (List.cons.inj hts).1
        rw [hhead] at hlast
        cases hlast
  subst hnil
  rw [Template.ofScan, hrun]
  simp [run, extend, start, finished, Except.map]

/-- A template is read from well-formed segments if and only if the grammar derives it from their
tokens. -/
theorem Template.ofScan_eq_ok_iff (hwf : ∀ s ∈ scan.segments, s.WellFormed) :
    Template.ofScan scan = .ok template ↔ Derives scan.tokens template :=
  ⟨Template.derives_of_ofScan ⟨hwf, rfl⟩, Template.ofScan_of_derives ⟨hwf, rfl⟩⟩

end Template

/-- **The reader accepts exactly the grammar**: from the tokens of a source a template is read if
and only if the grammar derives it from them. -/
theorem Template.ofScan_eq_ok_iff_derives {source : String} {scan : Scan}
    (h : Scan.ofSource source = .ok scan) (template : Template) :
    Template.ofScan scan = .ok template ↔ Derives scan.tokens template :=
  Template.ofScan_eq_ok_iff (Scan.wellFormed_of_ofSource h)

/-- Derived: a variable of the template, a conditional with a chained arm, a field of a call in
parentheses, and a range with two variables that is left. Not derived: a variable behind the
structure that declares it. -/
theorem Template.ofScan_eq_ok_iff_derives_chained :
    (∃ scan, Scan.ofSource
        ("\x7b\x7b$x := .A\x7d\x7d\x7b\x7bif $x\x7d\x7da\x7b\x7belse if (len .B).C | not\x7d\x7d" ++
          "\x7b\x7brange $i, $e := .D\x7d\x7d\x7b\x7bbreak\x7d\x7d\x7b\x7belse\x7d\x7d" ++
          "\x7b\x7btemplate \"t\" $x\x7d\x7d\x7b\x7bend\x7d\x7d\x7b\x7bend\x7d\x7d") = .ok scan ∧
      ∃ template, Template.ofScan scan = .ok template ∧ Derives scan.tokens template) ∧
    ∃ scan, Scan.ofSource "\x7b\x7bif .A\x7d\x7d\x7b\x7b$y := .B\x7d\x7d\x7b\x7bend\x7d\x7d\x7b\x7b$y\x7d\x7d" = .ok scan ∧
      ∀ template, ¬ Derives scan.tokens template := by
  constructor
  · refine (exists_ok_of_any (p := fun scan => (Template.ofScan scan).toOption.any fun _ => true)
      ?_).imp fun scan ⟨hscan, hread⟩ => ⟨hscan, ?_⟩
    · decide +kernel
    · obtain ⟨template, htemplate, _⟩ := exists_ok_of_any hread
      exact ⟨template, htemplate, (Template.ofScan_eq_ok_iff_derives hscan template).mp htemplate⟩
  · refine (exists_ok_of_any (p := fun scan => !(Template.ofScan scan).toBool)
      ?_).imp fun scan ⟨hscan, hread⟩ => ⟨hscan, fun template hderives => ?_⟩
    · decide +kernel
    · rw [(Template.ofScan_eq_ok_iff_derives hscan template).mpr hderives] at hread
      cases hread

end Fieldwise
