import Fieldwise.Proofs.Template.Grammar

/-!
# Templates at other places

What a template says does not depend on the places at which it stands, nor on variables in scope
that it does not use.

* `Operand.bare`, `barePipeline`, `Node.bare`, `bareNodes` : the syntax of a template without its
  places.
* `Grammar.Alike` : the same tokens, perhaps at other places.
* `IsPipeline.relocate`, `IsItems.relocate` : from tokens that are alike the grammar derives the
  same syntax, up to places, also when more variables are in scope.
* `IsItems.subset` : variables stay in scope from one item to the next.

The induction is on the derivation in each case, one theorem for each sort of phrase.
-/

set_option autoImplicit false

namespace Fieldwise

/-! ## Syntax without places -/

/-- The token without its place. -/
def Token.bare (t : Token) : Token :=
  { t with pos := .start }

/-- The variable without its place. -/
def DeclaredVariable.bare (v : DeclaredVariable) : DeclaredVariable :=
  { v with pos := .start }

mutual

/-- The operand without places. -/
def Operand.bare : Operand → Operand
  | .dot _ => .dot .start
  | .field _ names => .field .start names
  | .var _ name fields => .var .start name fields
  | .identifier _ name => .identifier .start name
  | .chain base fields => .chain base.bare fields
  | .group pipe => .group (barePipeline pipe)
  | .string _ text => .string .start text
  | .number _ text => .number .start text
  | .bool _ value => .bool .start value
  | .nil _ => .nil .start
termination_by structural operand => operand

/-- The pipeline without places. -/
def barePipeline : Pipeline Operand → Pipeline Operand
  | ⟨_, assigns, declared, commands⟩ =>
    ⟨.start, assigns, declared.map .bare, bareCommands commands⟩
termination_by structural pipe => pipe

/-- The commands without places. -/
def bareCommands : List (Command Operand) → List (Command Operand)
  | [] => []
  | command :: rest => bareCommand command :: bareCommands rest
termination_by structural commands => commands

/-- The command without places. -/
def bareCommand : Command Operand → Command Operand
  | ⟨_, args⟩ => ⟨.start, bareOperands args⟩
termination_by structural command => command

/-- The operands without places. -/
def bareOperands : List Operand → List Operand
  | [] => []
  | operand :: rest => operand.bare :: bareOperands rest
termination_by structural operands => operands

end

mutual

/-- The node without places. -/
def Node.bare : Node → Node
  | .text _ s => .text .start s
  | .action _ pipe => .action .start (barePipeline pipe)
  | .branch kind _ pipe body alternative =>
    .branch kind .start (barePipeline pipe) (bareList body) (bareAlternative alternative)
  | .template _ name pipe => .template .start name (pipe.map barePipeline)
  | .leave _ => .leave .start
  | .skip _ => .skip .start
termination_by structural node => node

/-- The list without places. -/
def bareList : NodeList Node → NodeList Node
  | ⟨_, nodes⟩ => ⟨.start, bareNodes nodes⟩
termination_by structural list => list

/-- The list without places, if there is one. -/
def bareAlternative : Option (NodeList Node) → Option (NodeList Node)
  | none => none
  | some list => some (bareList list)
termination_by structural list => list

/-- The nodes without places. -/
def bareNodes : List Node → List Node
  | [] => []
  | node :: rest => node.bare :: bareNodes rest
termination_by structural nodes => nodes

end

namespace Grammar

variable {Γ Γ' Δ Θ : Scope} {d : Nat} {loop : Bool} {context : Context} {t u : Token}
  {ts us vs : List Token}

/-! ## Tokens that are alike -/

/-- The same tokens, perhaps at other places. -/
def Alike (us ts : List Token) : Prop :=
  us.map Token.bare = ts.map Token.bare

theorem kind_of_bare (h : u.bare = t.bare) : u.kind = t.kind := by
  have := congrArg Token.kind h
  exact this

theorem spaceBefore_of_bare (h : u.bare = t.bare) : u.spaceBefore = t.spaceBefore := by
  have := congrArg Token.spaceBefore h
  exact this

namespace Alike

theorem refl (ts : List Token) : Alike ts ts := rfl

theorem cons_cons (hu : u.bare = t.bare) (h : Alike us ts) : Alike (u :: us) (t :: ts) := by
  rw [Alike, List.map_cons, List.map_cons, hu, h]

theorem append_append {us' ts' : List Token} (h : Alike us ts) (h' : Alike us' ts') :
    Alike (us ++ us') (ts ++ ts') := by
  rw [Alike, List.map_append, List.map_append, h, h']

theorem nil (h : Alike us []) : us = [] :=
  List.map_eq_nil_iff.mp h

theorem cons (h : Alike us (t :: ts)) :
    ∃ u vs, us = u :: vs ∧ u.bare = t.bare ∧ Alike vs ts := by
  obtain ⟨u, vs, rfl, hu, hvs⟩ := List.map_eq_cons_iff.mp (h.trans List.map_cons)
  exact ⟨u, vs, rfl, hu, hvs⟩

theorem append (h : Alike us (ts ++ vs)) :
    ∃ us' vs', us = us' ++ vs' ∧ Alike us' ts ∧ Alike vs' vs := by
  obtain ⟨us', vs', rfl, hts, hvs⟩ := List.map_eq_append_iff.mp (h.trans List.map_append)
  exact ⟨us', vs', rfl, hts, hvs⟩

theorem singleton (h : Alike us [t]) : ∃ u, us = [u] ∧ u.bare = t.bare := by
  obtain ⟨u, vs, rfl, hu, hvs⟩ := h.cons
  rw [hvs.nil]
  exact ⟨u, rfl, hu⟩

theorem startsAt {pos : Pos} (h : Alike us ts) (hpos : StartsAt ts pos) :
    ∃ pos', StartsAt us pos' := by
  cases ts with
  | nil => cases hpos
  | cons t ts =>
    obtain ⟨u, vs, rfl, -, -⟩ := h.cons
    exact ⟨u.pos, rfl⟩

end Alike

/-! ## Variables stay in scope -/

theorem IsDeclared.subset {assigns : Bool} {declared : List DeclaredVariable}
    (h : IsDeclared context Γ ts assigns declared Δ) : Γ ⊆ Δ := by
  cases h with
  | none | assign | assignTwo => exact List.Subset.refl _
  | declare => exact List.subset_cons_self ..
  | declareTwo => exact List.subset_cons_of_subset _ (List.subset_cons_self ..)

mutual

theorem IsTerm.subset : ∀ {d : Nat} {Γ Δ : Scope} {ts : List Token} {a : Operand},
    IsTerm d Γ ts a Δ → Γ ⊆ Δ
  | _, _, _, _, _, .atom _ => List.Subset.refl _
  | _, _, _, _, _, .group _ _ hp _ => hp.subset

theorem IsOperand.subset : ∀ {d : Nat} {Γ Δ : Scope} {ts : List Token} {a : Operand},
    IsOperand d Γ ts a Δ → Γ ⊆ Δ
  | _, _, _, _, _, .mk ht _ _ => ht.subset

theorem IsCommand.subset : ∀ {d : Nat} {Γ Δ : Scope} {ts : List Token} {args : List Operand},
    IsCommand d Γ ts args Δ → Γ ⊆ Δ
  | _, _, _, _, _, .one h => h.subset
  | _, _, _, _, _, .cons h _ hrest => List.Subset.trans h.subset hrest.subset

theorem IsCommands.subset : ∀ {d : Nat} {Γ Δ : Scope} {ts : List Token}
    {commands : List (Command Operand)}, IsCommands d Γ ts commands Δ → Γ ⊆ Δ
  | _, _, _, _, _, .one h _ => h.subset
  | _, _, _, _, _, .cons h _ _ hrest => List.Subset.trans h.subset hrest.subset

/-- A pipeline takes no variable out of scope. -/
theorem IsPipeline.subset : ∀ {context : Context} {d : Nat} {Γ Δ : Scope} {ts : List Token}
    {pipe : Pipeline Operand}, IsPipeline context d Γ ts pipe Δ → Γ ⊆ Δ
  | _, _, _, _, _, _, .mk hd hc _ => List.Subset.trans hd.subset hc.subset

end

theorem IsItem.subset {node : Node} (h : IsItem d loop Γ ts node Δ) : Γ ⊆ Δ := by
  cases h with
  | text | template | leave | skip | branch => exact List.Subset.refl _
  | action _ hp => exact hp.subset
  | templateWith _ _ _ hp => exact hp.subset

/-- Variables stay in scope from one item to the next. -/
theorem IsItems.subset : ∀ {d : Nat} {loop : Bool} {Γ Δ : Scope} {ts : List Token}
    {nodes : List Node}, IsItems d loop Γ ts nodes Δ → Γ ⊆ Δ
  | _, _, _, _, _, _, .nil => List.Subset.refl _
  | _, _, _, _, _, _, .cons h hrest => List.Subset.trans h.subset hrest.subset

/-! ## Operands and pipelines at other places -/

theorem IsAtom.relocate {a : Operand} (h : IsAtom Γ t a) (hu : u.bare = t.bare) (hΓ : Γ ⊆ Γ') :
    ∃ b, IsAtom Γ' u b ∧ b.bare = a.bare := by
  obtain ⟨kind, pos, space⟩ := u
  cases h with
  | identifier h =>
    cases kind_of_bare hu
    exact ⟨_, .identifier h, rfl⟩
  | var h =>
    cases kind_of_bare hu
    exact ⟨_, .var (hΓ h), rfl⟩
  | dot => cases kind_of_bare hu; exact ⟨_, .dot, rfl⟩
  | nil => cases kind_of_bare hu; exact ⟨_, .nil, rfl⟩
  | bool => cases kind_of_bare hu; exact ⟨_, .bool, rfl⟩
  | field => cases kind_of_bare hu; exact ⟨_, .field, rfl⟩
  | string => cases kind_of_bare hu; exact ⟨_, .string, rfl⟩
  | number => cases kind_of_bare hu; exact ⟨_, .number, rfl⟩

theorem IsFields.relocate {names : List String} (h : IsFields ts names) :
    ∀ {us : List Token}, Alike us ts → IsFields us names := by
  induction h with
  | nil =>
    intro us hus
    rw [hus.nil]
    exact .nil
  | cons _ ih =>
    intro us hus
    obtain ⟨⟨kind, pos, space⟩, vs, rfl, hu, hvs⟩ := hus.cons
    cases kind_of_bare hu
    cases spaceBefore_of_bare hu
    exact .cons (ih hvs)

theorem Attached.relocate {term term' a : Operand} {fields : List String}
    (h : Attached term fields a) (hterm : term'.bare = term.bare) :
    ∃ b, Attached term' fields b ∧ b.bare = a.bare := by
  cases h with
  | bare => exact ⟨_, .bare _, hterm⟩
  | field h =>
    cases term' <;> simp only [Operand.bare, Operand.field.injEq, reduceCtorEq, true_and] at hterm
    subst hterm
    exact ⟨_, .field h, rfl⟩
  | var h =>
    cases term' <;> simp only [Operand.bare, Operand.var.injEq, reduceCtorEq, true_and] at hterm
    obtain ⟨rfl, rfl⟩ := hterm
    exact ⟨_, .var h, rfl⟩
  | identifier h =>
    cases term' <;>
      simp only [Operand.bare, Operand.identifier.injEq, reduceCtorEq, true_and] at hterm
    subst hterm
    exact ⟨_, .identifier h, rfl⟩
  | group h =>
    cases term' <;> simp only [Operand.bare, Operand.group.injEq, reduceCtorEq] at hterm
    exact ⟨_, .group h, by simp only [Operand.bare, hterm]⟩

theorem IsDeclared.relocate {assigns : Bool} {declared : List DeclaredVariable}
    (h : IsDeclared context Γ ts assigns declared Δ) (hus : Alike us ts) (hΓ : Γ ⊆ Γ') :
    ∃ declared' Δ', IsDeclared context Γ' us assigns declared' Δ' ∧
      declared'.map DeclaredVariable.bare = declared.map DeclaredVariable.bare ∧ Δ ⊆ Δ' := by
  cases h with
  | none =>
    rw [hus.nil]
    exact ⟨_, _, .none, rfl, hΓ⟩
  | declare hv hm =>
    obtain ⟨v', _, rfl, hv', hus⟩ := hus.cons
    obtain ⟨m', rfl, hm'⟩ := hus.singleton
    exact ⟨_, _, .declare ((kind_of_bare hv').trans hv) ((kind_of_bare hm').trans hm), rfl,
      List.cons_subset_cons _ hΓ⟩
  | assign hv hm hx =>
    obtain ⟨v', _, rfl, hv', hus⟩ := hus.cons
    obtain ⟨m', rfl, hm'⟩ := hus.singleton
    exact ⟨_, _, .assign ((kind_of_bare hv').trans hv) ((kind_of_bare hm').trans hm) (hΓ hx), rfl,
      hΓ⟩
  | declareTwo hrange hv hc hw hm =>
    obtain ⟨v', _, rfl, hv', hus⟩ := hus.cons
    obtain ⟨c', _, rfl, hc', hus⟩ := hus.cons
    obtain ⟨w', _, rfl, hw', hus⟩ := hus.cons
    obtain ⟨m', rfl, hm'⟩ := hus.singleton
    exact ⟨_, _, .declareTwo hrange ((kind_of_bare hv').trans hv) ((kind_of_bare hc').trans hc)
      ((kind_of_bare hw').trans hw) ((kind_of_bare hm').trans hm), rfl,
      List.cons_subset_cons _ (List.cons_subset_cons _ hΓ)⟩
  | assignTwo hrange hv hc hw hm hx hy =>
    obtain ⟨v', _, rfl, hv', hus⟩ := hus.cons
    obtain ⟨c', _, rfl, hc', hus⟩ := hus.cons
    obtain ⟨w', _, rfl, hw', hus⟩ := hus.cons
    obtain ⟨m', rfl, hm'⟩ := hus.singleton
    exact ⟨_, _, .assignTwo hrange ((kind_of_bare hv').trans hv) ((kind_of_bare hc').trans hc)
      ((kind_of_bare hw').trans hw) ((kind_of_bare hm').trans hm) (hΓ hx) (hΓ hy), rfl, hΓ⟩

mutual

theorem IsTerm.relocate : ∀ {d : Nat} {Γ Δ : Scope} {ts : List Token} {a : Operand},
    IsTerm d Γ ts a Δ → ∀ {Γ' : Scope} {us : List Token}, Alike us ts → Γ ⊆ Γ' →
    ∃ b Δ', IsTerm d Γ' us b Δ' ∧ b.bare = a.bare ∧ Δ ⊆ Δ'
  | _, _, _, _, _, .atom h, _, _, hus, hΓ => by
    obtain ⟨u, rfl, hu⟩ := hus.singleton
    obtain ⟨b, hb, hbare⟩ := h.relocate hu hΓ
    exact ⟨b, _, .atom hb, hbare, hΓ⟩
  | _, _, _, _, _, .group hd ho hp hc, _, _, hus, hΓ => by
    obtain ⟨o', _, rfl, ho', hus⟩ := hus.cons
    obtain ⟨vs, ws, rfl, hvs, hws⟩ := hus.append
    obtain ⟨c', rfl, hc'⟩ := hws.singleton
    obtain ⟨pipe, Δ', hpipe, hbare, hΔ⟩ := hp.relocate hvs hΓ
    exact ⟨_, Δ', .group hd ((kind_of_bare ho').trans ho) hpipe ((kind_of_bare hc').trans hc),
      congrArg Operand.group hbare, hΔ⟩

theorem IsOperand.relocate : ∀ {d : Nat} {Γ Δ : Scope} {ts : List Token} {a : Operand},
    IsOperand d Γ ts a Δ → ∀ {Γ' : Scope} {us : List Token}, Alike us ts → Γ ⊆ Γ' →
    ∃ b Δ', IsOperand d Γ' us b Δ' ∧ b.bare = a.bare ∧ Δ ⊆ Δ'
  | _, _, _, _, _, .mk ht hf ha, _, _, hus, hΓ => by
    obtain ⟨vs, ws, rfl, hvs, hws⟩ := hus.append
    obtain ⟨term, Δ', hterm, hbare, hΔ⟩ := ht.relocate hvs hΓ
    obtain ⟨b, hb, hbare'⟩ := ha.relocate hbare
    exact ⟨b, Δ', .mk hterm (hf.relocate hws) hb, hbare', hΔ⟩

theorem IsCommand.relocate : ∀ {d : Nat} {Γ Δ : Scope} {ts : List Token} {args : List Operand},
    IsCommand d Γ ts args Δ → ∀ {Γ' : Scope} {us : List Token}, Alike us ts → Γ ⊆ Γ' →
    ∃ args' Δ', IsCommand d Γ' us args' Δ' ∧ bareOperands args' = bareOperands args ∧ Δ ⊆ Δ'
  | _, _, _, _, _, .one h, _, _, hus, hΓ => by
    obtain ⟨b, Δ', hb, hbare, hΔ⟩ := h.relocate hus hΓ
    exact ⟨[b], Δ', .one hb, by simp only [bareOperands, hbare], hΔ⟩
  | _, _, _, _, _, .cons h ht hrest, _, _, hus, hΓ => by
    obtain ⟨vs, ws, rfl, hvs, hws⟩ := hus.append
    obtain ⟨b, Δ', hb, hbare, hΔ⟩ := h.relocate hvs hΓ
    obtain ⟨args, Θ', hargs, hbares, hΘ⟩ := hrest.relocate hws hΔ
    obtain ⟨u, ws, rfl, hu, -⟩ := hws.cons
    exact ⟨b :: args, Θ', .cons hb ((spaceBefore_of_bare hu).trans ht) hargs,
      by simp only [bareOperands, hbare, hbares], hΘ⟩

theorem IsCommands.relocate : ∀ {d : Nat} {Γ Δ : Scope} {ts : List Token}
    {commands : List (Command Operand)}, IsCommands d Γ ts commands Δ →
    ∀ {Γ' : Scope} {us : List Token}, Alike us ts → Γ ⊆ Γ' →
    ∃ commands' Δ', IsCommands d Γ' us commands' Δ' ∧
      bareCommands commands' = bareCommands commands ∧ Δ ⊆ Δ'
  | _, _, _, _, _, .one h hpos, _, _, hus, hΓ => by
    obtain ⟨args, Δ', hargs, hbare, hΔ⟩ := h.relocate hus hΓ
    obtain ⟨pos, hpos'⟩ := hus.startsAt hpos
    exact ⟨_, Δ', .one hargs hpos', by simp only [bareCommands, bareCommand, hbare], hΔ⟩
  | _, _, _, _, _, .cons h hpos hbar hrest, _, _, hus, hΓ => by
    obtain ⟨vs, ws, rfl, hvs, hws⟩ := hus.append
    obtain ⟨u, ws, rfl, hu, hws⟩ := hws.cons
    obtain ⟨args, Δ', hargs, hbare, hΔ⟩ := h.relocate hvs hΓ
    obtain ⟨commands, Θ', hcommands, hbares, hΘ⟩ := hrest.relocate hws hΔ
    obtain ⟨pos, hpos'⟩ := hvs.startsAt hpos
    exact ⟨_, Θ', .cons hargs hpos' ((kind_of_bare hu).trans hbar) hcommands,
      by simp only [bareCommands, bareCommand, hbare, hbares], hΘ⟩

/-- **A pipeline is derived at any place**, also with more variables in scope. -/
theorem IsPipeline.relocate : ∀ {context : Context} {d : Nat} {Γ Δ : Scope} {ts : List Token}
    {pipe : Pipeline Operand}, IsPipeline context d Γ ts pipe Δ →
    ∀ {Γ' : Scope} {us : List Token}, Alike us ts → Γ ⊆ Γ' →
    ∃ pipe' Δ', IsPipeline context d Γ' us pipe' Δ' ∧ barePipeline pipe' = barePipeline pipe ∧
      Δ ⊆ Δ'
  | _, _, _, _, _, _, .mk hd hc hpos, _, _, hus, hΓ => by
    obtain ⟨pos, hpos'⟩ := hus.startsAt hpos
    obtain ⟨vs, ws, rfl, hvs, hws⟩ := hus.append
    obtain ⟨declared, Δ', hdeclared, hbare, hΔ⟩ := hd.relocate hvs hΓ
    obtain ⟨commands, Θ', hcommands, hbares, hΘ⟩ := hc.relocate hws hΔ
    exact ⟨_, Θ', .mk hdeclared hcommands hpos', by simp only [barePipeline, hbare, hbares], hΘ⟩

end

/-! ## Items and control structures at other places -/

theorem IsWord.relocate {k : Keyword} {pos : Pos} (h : IsWord k pos ts) (hus : Alike us ts) :
    ∃ pos', IsWord k pos' us := by
  cases h with
  | mk ho hw hc =>
    obtain ⟨o', _, rfl, ho', hus⟩ := hus.cons
    obtain ⟨w', _, rfl, hw', hus⟩ := hus.cons
    obtain ⟨c', rfl, hc'⟩ := hus.singleton
    exact ⟨_, .mk ((kind_of_bare ho').trans ho) ((kind_of_bare hw').trans hw)
      ((kind_of_bare hc').trans hc)⟩

mutual

theorem IsItem.relocate : ∀ {d : Nat} {loop : Bool} {Γ Δ : Scope} {ts : List Token} {node : Node},
    IsItem d loop Γ ts node Δ → ∀ {Γ' : Scope} {us : List Token}, Alike us ts → Γ ⊆ Γ' →
    ∃ node' Δ', IsItem d loop Γ' us node' Δ' ∧ node'.bare = node.bare ∧ Δ ⊆ Δ'
  | _, _, _, _, _, _, .text h, _, _, hus, hΓ => by
    obtain ⟨u, rfl, hu⟩ := hus.singleton
    exact ⟨_, _, .text ((kind_of_bare hu).trans h), rfl, hΓ⟩
  | _, _, _, _, _, _, .action ho hp hc, _, _, hus, hΓ => by
    obtain ⟨o', _, rfl, ho', hus⟩ := hus.cons
    obtain ⟨vs, ws, rfl, hvs, hws⟩ := hus.append
    obtain ⟨c', rfl, hc'⟩ := hws.singleton
    obtain ⟨pipe, Δ', hpipe, hbare, hΔ⟩ := hp.relocate hvs hΓ
    exact ⟨_, Δ', .action ((kind_of_bare ho').trans ho) hpipe ((kind_of_bare hc').trans hc),
      congrArg (Node.action .start) hbare, hΔ⟩
  | _, _, _, _, _, _, .template ho hw ht hc, _, _, hus, hΓ => by
    obtain ⟨o', _, rfl, ho', hus⟩ := hus.cons
    obtain ⟨w', _, rfl, hw', hus⟩ := hus.cons
    obtain ⟨t', _, rfl, ht', hus⟩ := hus.cons
    obtain ⟨c', rfl, hc'⟩ := hus.singleton
    exact ⟨_, _, .template ((kind_of_bare ho').trans ho) ((kind_of_bare hw').trans hw)
      ((kind_of_bare ht').trans ht) ((kind_of_bare hc').trans hc), rfl, hΓ⟩
  | _, _, _, _, _, _, .templateWith ho hw ht hp hc, _, _, hus, hΓ => by
    obtain ⟨o', _, rfl, ho', hus⟩ := hus.cons
    obtain ⟨w', _, rfl, hw', hus⟩ := hus.cons
    obtain ⟨t', _, rfl, ht', hus⟩ := hus.cons
    obtain ⟨vs, ws, rfl, hvs, hws⟩ := hus.append
    obtain ⟨c', rfl, hc'⟩ := hws.singleton
    obtain ⟨pipe, Δ', hpipe, hbare, hΔ⟩ := hp.relocate hvs hΓ
    exact ⟨_, Δ', .templateWith ((kind_of_bare ho').trans ho) ((kind_of_bare hw').trans hw)
      ((kind_of_bare ht').trans ht) hpipe ((kind_of_bare hc').trans hc),
      congrArg (fun pipe => Node.template .start _ (some pipe)) hbare, hΔ⟩
  | _, _, _, _, _, _, .leave h, _, _, hus, hΓ => by
    obtain ⟨pos, hword⟩ := h.relocate hus
    exact ⟨_, _, .leave hword, rfl, hΓ⟩
  | _, _, _, _, _, _, .skip h, _, _, hus, hΓ => by
    obtain ⟨pos, hword⟩ := h.relocate hus
    exact ⟨_, _, .skip hword, rfl, hΓ⟩
  | _, _, _, _, _, _, .branch ho hw h, _, _, hus, hΓ => by
    obtain ⟨o', _, rfl, ho', hus⟩ := hus.cons
    obtain ⟨w', _, rfl, hw', hus⟩ := hus.cons
    obtain ⟨pipe, body, alternative, hstructure, hpipe, hbody, halternative⟩ := h.relocate hus hΓ
    exact ⟨_, _, .branch ((kind_of_bare ho').trans ho) ((kind_of_bare hw').trans hw) hstructure,
      by simp only [Node.bare, hpipe, hbody, halternative], hΓ⟩

/-- **Items are derived at any place**, also with more variables in scope. -/
theorem IsItems.relocate : ∀ {d : Nat} {loop : Bool} {Γ Δ : Scope} {ts : List Token}
    {nodes : List Node}, IsItems d loop Γ ts nodes Δ →
    ∀ {Γ' : Scope} {us : List Token}, Alike us ts → Γ ⊆ Γ' →
    ∃ nodes' Δ', IsItems d loop Γ' us nodes' Δ' ∧ bareNodes nodes' = bareNodes nodes ∧ Δ ⊆ Δ'
  | _, _, _, _, _, _, .nil, _, _, hus, hΓ => by
    rw [hus.nil]
    exact ⟨[], _, .nil, rfl, hΓ⟩
  | _, _, _, _, _, _, .cons h hrest, _, _, hus, hΓ => by
    obtain ⟨vs, ws, rfl, hvs, hws⟩ := hus.append
    obtain ⟨node, Δ', hnode, hbare, hΔ⟩ := h.relocate hvs hΓ
    obtain ⟨nodes, Θ', hnodes, hbares, hΘ⟩ := hrest.relocate hws hΔ
    exact ⟨node :: nodes, Θ', .cons hnode hnodes, by simp only [bareNodes, hbare, hbares], hΘ⟩

theorem IsStructure.relocate : ∀ {kind : BranchKind} {d : Nat} {loop : Bool} {Γ : Scope}
    {ts : List Token} {pipe : Pipeline Operand} {body : NodeList Node}
    {alternative : Option (NodeList Node)}, IsStructure kind d loop Γ ts pipe body alternative →
    ∀ {Γ' : Scope} {us : List Token}, Alike us ts → Γ ⊆ Γ' →
    ∃ pipe' body' alternative', IsStructure kind d loop Γ' us pipe' body' alternative' ∧
      barePipeline pipe' = barePipeline pipe ∧ bareList body' = bareList body ∧
      bareAlternative alternative' = bareAlternative alternative
  | _, _, _, _, _, _, _, _, .mk hd hp hc hb hr hpos, _, _, hus, hΓ => by
    obtain ⟨ps, _, rfl, hps, hus⟩ := hus.append
    obtain ⟨c', _, rfl, hc', hus⟩ := hus.cons
    obtain ⟨pos, hpos'⟩ := hus.startsAt hpos
    obtain ⟨bs, rs, rfl, hbs, hrs⟩ := hus.append
    obtain ⟨pipe, Δ', hpipe, hbare, hΔ⟩ := hp.relocate hps hΓ
    obtain ⟨nodes, Θ', hnodes, hbares, hΘ⟩ := hb.relocate hbs hΔ
    obtain ⟨alternative, htail, halternative⟩ := hr.relocate hrs hΘ
    exact ⟨pipe, ⟨pos, nodes⟩, alternative,
      .mk hd hpipe ((kind_of_bare hc').trans hc) hnodes htail hpos', hbare,
      by simp only [bareList, hbares], halternative⟩

theorem IsTail.relocate : ∀ {kind : BranchKind} {d : Nat} {loop : Bool} {Γ : Scope}
    {ts : List Token} {alternative : Option (NodeList Node)},
    IsTail kind d loop Γ ts alternative →
    ∀ {Γ' : Scope} {us : List Token}, Alike us ts → Γ ⊆ Γ' →
    ∃ alternative', IsTail kind d loop Γ' us alternative' ∧
      bareAlternative alternative' = bareAlternative alternative
  | _, _, _, _, _, _, .plain he, _, _, hus, _ => by
    obtain ⟨pos, hword⟩ := he.relocate hus
    exact ⟨none, .plain hword, rfl⟩
  | _, _, _, _, _, _, .divided hl ho he hpos, _, _, hus, hΓ => by
    obtain ⟨ls, _, rfl, hls, hus⟩ := hus.append
    obtain ⟨pos, hpos'⟩ := hus.startsAt hpos
    obtain ⟨os, es, rfl, hos, hes⟩ := hus.append
    obtain ⟨elsePos, helse⟩ := hl.relocate hls
    obtain ⟨nodes, Δ', hnodes, hbares, -⟩ := ho.relocate hos hΓ
    obtain ⟨endPos, hend⟩ := he.relocate hes
    exact ⟨some ⟨pos, nodes⟩, .divided helse hnodes hend hpos',
      by simp only [bareAlternative, bareList, hbares]⟩
  | _, _, _, _, _, _, .chained ho hl hk hrange h, _, _, hus, hΓ => by
    obtain ⟨o', _, rfl, ho', hus⟩ := hus.cons
    obtain ⟨l', _, rfl, hl', hus⟩ := hus.cons
    obtain ⟨k', _, rfl, hk', hus⟩ := hus.cons
    obtain ⟨pipe, body, alternative, hstructure, hpipe, hbody, halternative⟩ := h.relocate hus hΓ
    exact ⟨_, .chained ((kind_of_bare ho').trans ho) ((kind_of_bare hl').trans hl)
      ((kind_of_bare hk').trans hk) hrange hstructure,
      by simp only [bareAlternative, bareList, bareNodes, Node.bare, hpipe, hbody, halternative]⟩

end

end Grammar

end Fieldwise
