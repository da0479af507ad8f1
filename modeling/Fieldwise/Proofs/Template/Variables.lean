import Fieldwise.Proofs.Outcome
import Fieldwise.Proofs.Template.Structure

/-!
# Where variables are declared

* `Place` : a list of items in a template, or the pipeline of a control structure.
* `Template.mentions` : the variables of a template in the order of the source, each with its place
  and with whether `:=` declares it there.
* `Place.Encloses` : what is declared at the one place is declared around the other.
* `Grammar.IsItems.occurrences`, `Grammar.IsItems.supplied` : the mentions are the variables among
  the tokens, and each that is used was declared before, at a place that reaches it.
* `Template.mentions_supplied` : for whole sources. The place of the declaration encloses that of
  the use, or it is the body of a structure whose alternative the use stands in: the scope of a
  structure is left at its end only.
-/

set_option autoImplicit false

namespace Fieldwise

/-! ## Places -/

/-- What a control structure has: a pipeline, a body and perhaps an alternative. -/
inductive Part where
  | head
  | body
  | alternative
  deriving DecidableEq, Repr

/-- A list of items: the parts that lead to it from the outermost list, each with the number of the
item that it is a part of. Behind the last step to a `head` there is a pipeline in place of a list. -/
abbrev Place := List (Nat × Part)

namespace Place

/-- What is declared at `p` is declared around `q`: in the same list or one that encloses it, or in
the pipeline of a structure that encloses it. -/
def Encloses (p q : Place) : Prop :=
  p <+: q ∨ ∃ outer i part, p = outer ++ [(i, .head)] ∧ outer ++ [(i, part)] <+: q

/-- The place `p` is the body of a structure, and `q` lies in the alternative of it. -/
def BodyBefore (p q : Place) : Prop :=
  ∃ outer i, p = outer ++ [(i, .body)] ∧ outer ++ [(i, .alternative)] <+: q

/-- What is declared at `p` may be used at `q`. -/
def Reaches (p q : Place) : Prop :=
  p.Encloses q ∨ p.BodyBefore q

variable {p q : Place} {i : Nat}

theorem Reaches.refl (p : Place) : p.Reaches p :=
  .inl (.inl List.prefix_rfl)

/-- What reaches a list reaches all parts of its items. -/
theorem Reaches.inner (h : p.Reaches q) (rest : Place) : p.Reaches (q ++ rest) := by
  have hq : q <+: q ++ rest := List.prefix_append q rest
  rcases h with (h | ⟨outer, i, part, rfl, h⟩) | ⟨outer, i, rfl, h⟩
  · exact .inl (.inl (h.trans hq))
  · exact .inl (.inr ⟨outer, i, part, rfl, h.trans hq⟩)
  · exact .inr ⟨outer, i, rfl, h.trans hq⟩

/-- What reaches the pipeline of a structure reaches all its parts. -/
theorem Reaches.of_head (h : p.Reaches (q ++ [(i, .head)])) (part : Part) :
    p.Reaches (q ++ [(i, part)]) := by
  have hq : q <+: q ++ [(i, part)] := List.prefix_append _ _
  rcases h with (h | ⟨outer, j, between, rfl, h⟩) | ⟨outer, j, rfl, h⟩
  · rcases List.prefix_concat_iff.mp h with rfl | h
    · exact .inl (.inr ⟨q, i, part, rfl, List.prefix_rfl⟩)
    · exact .inl (.inl (h.trans hq))
  · rcases List.prefix_concat_iff.mp h with h | h
    · obtain ⟨rfl, hstep⟩ := List.append_inj' h rfl
      cases hstep
      exact .inl (.inr ⟨outer, i, part, rfl, List.prefix_rfl⟩)
    · exact .inl (.inr ⟨outer, j, between, rfl, h.trans hq⟩)
  · rcases List.prefix_concat_iff.mp h with h | h
    · cases (List.append_inj' h rfl).2
    · exact .inr ⟨outer, j, rfl, h.trans hq⟩

/-- What reaches the body of a structure reaches its alternative. -/
theorem Reaches.of_body (h : p.Reaches (q ++ [(i, .body)])) :
    p.Reaches (q ++ [(i, .alternative)]) := by
  have hq : q <+: q ++ [(i, .alternative)] := List.prefix_append _ _
  rcases h with (h | ⟨outer, j, between, rfl, h⟩) | ⟨outer, j, rfl, h⟩
  · rcases List.prefix_concat_iff.mp h with rfl | h
    · exact .inr ⟨q, i, rfl, List.prefix_rfl⟩
    · exact .inl (.inl (h.trans hq))
  · rcases List.prefix_concat_iff.mp h with h | h
    · obtain ⟨rfl, hstep⟩ := List.append_inj' h rfl
      cases hstep
      exact .inl (.inr ⟨outer, i, .alternative, rfl, List.prefix_rfl⟩)
    · exact .inl (.inr ⟨outer, j, between, rfl, h.trans hq⟩)
  · rcases List.prefix_concat_iff.mp h with h | h
    · cases (List.append_inj' h rfl).2
    · exact .inr ⟨outer, j, rfl, h.trans hq⟩

end Place

/-! ## The variables of a template -/

/-- A variable where it is written. -/
structure Mention where
  place : Place
  declares : Bool
  name : String
  pos : Pos
  deriving DecidableEq, Repr

mutual

/-- The variables in an operand at a place. -/
def Operand.mentions (p : Place) : Operand → List Mention
  | .var pos name _ => [⟨p, false, name, pos⟩]
  | .chain base _ => base.mentions p
  | .group pipe => pipelineMentions p pipe
  | _ => []
termination_by structural operand => operand

/-- The variables in a pipeline: those that it declares or assigns, then those of its commands. -/
def pipelineMentions (p : Place) : Pipeline Operand → List Mention
  | ⟨_, assigns, declared, commands⟩ =>
    (declared.map fun v => ⟨p, !assigns, v.name, v.pos⟩) ++ commandsMentions p commands
termination_by structural pipe => pipe

/-- The variables in some commands. -/
def commandsMentions (p : Place) : List (Command Operand) → List Mention
  | [] => []
  | command :: rest => commandMentions p command ++ commandsMentions p rest
termination_by structural commands => commands

/-- The variables in a command. -/
def commandMentions (p : Place) : Command Operand → List Mention
  | ⟨_, args⟩ => operandsMentions p args
termination_by structural command => command

/-- The variables in some operands. -/
def operandsMentions (p : Place) : List Operand → List Mention
  | [] => []
  | operand :: rest => operand.mentions p ++ operandsMentions p rest
termination_by structural operands => operands

end

/-- The variables in a pipeline that may be missing. -/
def clauseMentions (p : Place) (pipe : Option (Pipeline Operand)) : List Mention :=
  (pipe.map (pipelineMentions p)).getD []

mutual

/-- The variables in the item with a number in the list at a place. -/
def Node.mentions (p : Place) (i : Nat) : Node → List Mention
  | .action _ pipe => pipelineMentions p pipe
  | .branch _ _ pipe body alternative =>
    pipelineMentions (p ++ [(i, .head)]) pipe ++ (listMentions (p ++ [(i, .body)]) body ++
      alternativeMentions (p ++ [(i, .alternative)]) alternative)
  | .template _ _ pipe => clauseMentions p pipe
  | .text _ _ | .leave _ | .skip _ => []
termination_by structural node => node

/-- The variables in the list at a place. -/
def listMentions (p : Place) : NodeList Node → List Mention
  | ⟨_, nodes⟩ => nodesMentions p 0 nodes
termination_by structural list => list

/-- The variables in a list that may be missing. -/
def alternativeMentions (p : Place) : Option (NodeList Node) → List Mention
  | none => []
  | some list => listMentions p list
termination_by structural list => list

/-- The variables in the items of a list from a number on. -/
def nodesMentions (p : Place) (i : Nat) : List Node → List Mention
  | [] => []
  | node :: rest => node.mentions p i ++ nodesMentions p (i + 1) rest
termination_by structural nodes => nodes

end

theorem alternativeMentions_single (p : Place) (pos : Pos) (node : Node) :
    alternativeMentions p (some ⟨pos, [node]⟩) = node.mentions p 0 :=
  List.append_nil _

/-- The variables of a template in the order of the source. -/
def Template.mentions (template : Template) : List Mention :=
  listMentions [] template

/-! ## The variables among tokens -/

/-- A variable as the tokens show it. -/
structure Occurrence where
  declares : Bool
  name : String
  pos : Pos
  deriving DecidableEq, Repr

/-- What the tokens show of a mention. -/
def Mention.occurrence (m : Mention) : Occurrence :=
  ⟨m.declares, m.name, m.pos⟩

/-- Behind a variable comes the mark `:=`, perhaps with a comma and a second variable between. -/
def isDeclaredBy : List TokenKind → Bool
  | .declare :: _ => true
  | .comma :: .var _ :: .declare :: _ => true
  | _ => false

/-- The variables among tokens, and which of them are declared where they stand. -/
def occurrences : List Token → List Occurrence
  | [] => []
  | ⟨.var name, pos, _⟩ :: rest =>
    ⟨isDeclaredBy (rest.map Token.kind), name, pos⟩ :: occurrences rest
  | _ :: rest => occurrences rest

namespace Grammar

variable {Γ Δ : Scope} {d : Nat} {ts rest : List Token}

theorem occurrences_cons {t : Token} {kind : TokenKind} (ht : t.kind = kind)
    (h : ∀ name, kind ≠ .var name) : occurrences (t :: rest) = occurrences rest := by
  subst ht
  obtain ⟨kind, pos, space⟩ := t
  cases kind with
  | var name => exact absurd rfl (h name)
  | _ => rfl

theorem occurrences_var {v : Token} {x : String} (hv : v.kind = .var x) :
    occurrences (v :: rest) =
      ⟨isDeclaredBy (rest.map Token.kind), x, v.pos⟩ :: occurrences rest := by
  obtain ⟨kind, pos, space⟩ := v
  cases hv
  rfl

/-- Where no mark follows, a variable is only used. -/
theorem isDeclaredBy_of_noMark (h : NoMark rest) :
    isDeclaredBy (rest.map Token.kind) = false := by
  cases rest with
  | nil => rfl
  | cons t rest =>
    have ht : isMark t.kind = false := h t rfl
    rw [List.map_cons]
    unfold isDeclaredBy
    split
    · next hkinds => rw [(List.cons.inj hkinds).1] at ht; cases ht
    · next hkinds => rw [(List.cons.inj hkinds).1] at ht; cases ht
    · rfl

theorem IsAtom.occurrences_eq {t : Token} {a : Operand} (h : IsAtom Γ t a) (hrest : NoMark rest)
    (p : Place) :
    occurrences (t :: rest) =
      (a.mentions p).map Mention.occurrence ++ occurrences rest := by
  cases h with
  | var hx => rw [occurrences_var rfl, isDeclaredBy_of_noMark hrest]; rfl
  | _ => rfl

theorem IsFields.occurrences_eq {fs : List Token} {names : List String} (h : IsFields fs names) :
    occurrences (fs ++ rest) = occurrences rest := by
  induction h with
  | nil => rfl
  | cons _ ih => exact ih

/-- Fields behind a term hold no variable. -/
theorem Attached.mentions {term a : Operand} {fields : List String} (h : Attached term fields a)
    (p : Place) : a.mentions p = term.mentions p := by
  cases h <;> rfl

theorem IsDeclared.occurrences_eq {context : Context} {assigns : Bool}
    {declared : List DeclaredVariable} (h : IsDeclared context Γ ts assigns declared Δ)
    (p : Place) :
    occurrences (ts ++ rest) =
      (declared.map fun v => (⟨p, !assigns, v.name, v.pos⟩ : Mention)).map Mention.occurrence ++
        occurrences rest := by
  cases h with
  | none => rfl
  | declare hv hm =>
    simp [occurrences_var hv, occurrences_cons hm nofun, isDeclaredBy, hm, Mention.occurrence]
  | assign hv hm =>
    simp [occurrences_var hv, occurrences_cons hm nofun, isDeclaredBy, hm, Mention.occurrence]
  | declareTwo _ hv hc hw hm =>
    simp [occurrences_var hv, occurrences_cons hc nofun, occurrences_var hw,
      occurrences_cons hm nofun, isDeclaredBy, hc, hw, hm, Mention.occurrence]
  | assignTwo _ hv hc hw hm =>
    simp [occurrences_var hv, occurrences_cons hc nofun, occurrences_var hw,
      occurrences_cons hm nofun, isDeclaredBy, hc, hw, hm, Mention.occurrence]

mutual

theorem IsTerm.occurrences_eq : ∀ {d : Nat} {Γ Δ : Scope} {ts : List Token} {a : Operand}
    (_ : IsTerm d Γ ts a Δ) (p : Place) {rest : List Token}, NoMark rest →
    occurrences (ts ++ rest) =
      (a.mentions p).map Mention.occurrence ++ occurrences rest
  | _, _, _, _, _, .atom h, p, _, hrest => h.occurrences_eq hrest p
  | _, _, _, _, _, .group _ ho hp hc, p, rest, _ => by
    have hinner := hp.occurrences_eq p (noMark_cons rest (by rw [hc]; rfl))
    rw [List.cons_append, List.append_assoc, occurrences_cons ho nofun, List.singleton_append,
      hinner, occurrences_cons hc nofun, Operand.mentions]

theorem IsOperand.occurrences_eq : ∀ {d : Nat} {Γ Δ : Scope} {ts : List Token} {a : Operand}
    (_ : IsOperand d Γ ts a Δ) (p : Place) {rest : List Token}, NoMark rest →
    occurrences (ts ++ rest) =
      (a.mentions p).map Mention.occurrence ++ occurrences rest
  | _, _, _, _, _, .mk ht hf ha, p, _, hrest => by
    rw [List.append_assoc, ht.occurrences_eq p (hf.noMark hrest), hf.occurrences_eq, ha.mentions p]

theorem IsCommand.occurrences_eq : ∀ {d : Nat} {Γ Δ : Scope} {ts : List Token}
    {args : List Operand} (_ : IsCommand d Γ ts args Δ) (p : Place) {rest : List Token},
    NoMark rest → occurrences (ts ++ rest) =
      (operandsMentions p args).map Mention.occurrence ++ occurrences rest
  | _, _, _, _, _, .one h, p, _, hrest => by
    rw [h.occurrences_eq p hrest, operandsMentions, operandsMentions, List.append_nil]
  | _, _, _, _, _, .cons h _ hmore, p, rest, hrest => by
    obtain ⟨t, us, hts, hstart⟩ := hmore.head
    obtain ⟨rfl, rfl⟩ := List.cons.inj hts
    rw [List.append_assoc, List.cons_append,
      h.occurrences_eq p (noMark_cons _ (isMark_of_startsOperand hstart)), ← List.cons_append,
      hmore.occurrences_eq p hrest, operandsMentions, List.map_append, List.append_assoc]

theorem IsCommands.occurrences_eq : ∀ {d : Nat} {Γ Δ : Scope} {ts : List Token}
    {commands : List (Command Operand)} (_ : IsCommands d Γ ts commands Δ) (p : Place)
    {rest : List Token}, NoMark rest → occurrences (ts ++ rest) =
      (commandsMentions p commands).map Mention.occurrence ++ occurrences rest
  | _, _, _, _, _, .one h _, p, _, hrest => by
    rw [h.occurrences_eq p hrest, commandsMentions, commandsMentions, List.append_nil, commandMentions]
  | _, _, _, _, _, .cons h _ hbar hmore, p, rest, hrest => by
    rw [List.append_assoc, List.cons_append,
      h.occurrences_eq p (noMark_cons _ (by rw [hbar]; rfl)), occurrences_cons hbar nofun,
      hmore.occurrences_eq p hrest, commandsMentions, List.map_append, List.append_assoc,
      commandMentions]

theorem IsPipeline.occurrences_eq : ∀ {context : Context} {d : Nat} {Γ Δ : Scope} {ts : List Token}
    {pipe : Pipeline Operand} (_ : IsPipeline context d Γ ts pipe Δ) (p : Place)
    {rest : List Token}, NoMark rest → occurrences (ts ++ rest) =
      (pipelineMentions p pipe).map Mention.occurrence ++ occurrences rest
  | _, _, _, _, _, _, .mk hd hc _, p, _, hrest => by
    rw [List.append_assoc, hd.occurrences_eq p, hc.occurrences_eq p hrest, pipelineMentions,
      List.map_append, List.append_assoc]

end

theorem IsWord.occurrences_eq {k : Keyword} {pos : Pos} (h : IsWord k pos ts) :
    occurrences (ts ++ rest) = occurrences rest := by
  cases h with
  | mk ho hw hc =>
    rw [List.cons_append, List.cons_append, List.singleton_append,
      occurrences_cons ho nofun, occurrences_cons hw nofun, occurrences_cons hc nofun]

mutual

theorem IsItem.occurrences_eq : ∀ {d : Nat} {loop : Bool} {Γ Δ : Scope} {ts : List Token}
    {node : Node} (_ : IsItem d loop Γ ts node Δ) (p : Place) (i : Nat) (rest : List Token),
    occurrences (ts ++ rest) =
      (node.mentions p i).map Mention.occurrence ++ occurrences rest
  | _, _, _, _, _, _, .text h, _, _, _ => by
    rw [List.singleton_append, occurrences_cons h nofun]
    rfl
  | _, _, _, _, _, _, .action ho hp hc, p, _, rest => by
    have hpipe := hp.occurrences_eq p (noMark_cons rest (by rw [hc]; rfl))
    rw [List.cons_append, List.append_assoc, occurrences_cons ho nofun, List.singleton_append,
      hpipe, occurrences_cons hc nofun, Node.mentions]
  | _, _, _, _, _, _, .template ho hw ht hc, _, _, _ => by
    simp only [List.cons_append, List.nil_append, occurrences_cons ho nofun,
      occurrences_cons hw nofun, occurrences_cons ht nofun, occurrences_cons hc nofun]
    rfl
  | _, _, _, _, _, _, .templateWith ho hw ht hp hc, p, _, rest => by
    have hpipe := hp.occurrences_eq p (noMark_cons rest (by rw [hc]; rfl))
    simp only [List.cons_append, List.append_assoc, List.nil_append, occurrences_cons ho nofun,
      occurrences_cons hw nofun, occurrences_cons ht nofun, hpipe, occurrences_cons hc nofun]
    rfl
  | _, _, _, _, _, _, .leave h, _, _, _ => h.occurrences_eq
  | _, _, _, _, _, _, .skip h, _, _, _ => h.occurrences_eq
  | _, _, _, _, _, _, .branch ho hw h, p, i, rest => by
    rw [List.cons_append, List.cons_append, occurrences_cons ho nofun, occurrences_cons hw nofun,
      h.occurrences_eq p i rest, Node.mentions]

theorem IsItems.occurrences_eq : ∀ {d : Nat} {loop : Bool} {Γ Δ : Scope} {ts : List Token}
    {nodes : List Node} (_ : IsItems d loop Γ ts nodes Δ) (p : Place) (i : Nat)
    (rest : List Token), occurrences (ts ++ rest) =
      (nodesMentions p i nodes).map Mention.occurrence ++ occurrences rest
  | _, _, _, _, _, _, .nil, _, _, _ => rfl
  | _, _, _, _, _, _, .cons h hmore, p, i, rest => by
    rw [List.append_assoc, h.occurrences_eq p i, hmore.occurrences_eq p (i + 1) rest,
      nodesMentions, List.map_append, List.append_assoc]

theorem IsStructure.occurrences_eq : ∀ {kind : BranchKind} {d : Nat} {loop : Bool} {Γ : Scope}
    {ts : List Token} {pipe : Pipeline Operand} {body : NodeList Node}
    {alternative : Option (NodeList Node)}
    (_ : IsStructure kind d loop Γ ts pipe body alternative) (p : Place) (i : Nat)
    (rest : List Token), occurrences (ts ++ rest) =
      (pipelineMentions (p ++ [(i, .head)]) pipe ++ (listMentions (p ++ [(i, .body)]) body ++
        alternativeMentions (p ++ [(i, .alternative)]) alternative)).map Mention.occurrence ++
          occurrences rest
  | _, _, _, _, _, _, _, _, .mk _ hp hc hb hr _, p, i, rest => by
    have hpipe := fun rest => hp.occurrences_eq (p ++ [(i, .head)])
      (noMark_cons rest (by rw [hc]; rfl))
    rw [List.append_assoc, List.cons_append, hpipe, occurrences_cons hc nofun, List.append_assoc,
      hb.occurrences_eq (p ++ [(i, .body)]) 0, hr.occurrences_eq p i rest, listMentions,
      List.map_append, List.map_append, List.append_assoc, List.append_assoc]

theorem IsTail.occurrences_eq : ∀ {kind : BranchKind} {d : Nat} {loop : Bool} {Γ : Scope}
    {ts : List Token} {alternative : Option (NodeList Node)}
    (_ : IsTail kind d loop Γ ts alternative) (p : Place) (i : Nat) (rest : List Token),
    occurrences (ts ++ rest) =
      (alternativeMentions (p ++ [(i, .alternative)]) alternative).map Mention.occurrence ++
        occurrences rest
  | _, _, _, _, _, _, .plain he, _, _, _ => he.occurrences_eq
  | _, _, _, _, _, _, .divided hl ho he _, p, i, rest => by
    rw [List.append_assoc, hl.occurrences_eq, List.append_assoc,
      ho.occurrences_eq (p ++ [(i, .alternative)]) 0, he.occurrences_eq]
    rfl
  | _, _, _, _, _, _, .chained ho hl hk _ h, p, i, rest => by
    rw [List.cons_append, List.cons_append, List.cons_append, occurrences_cons ho nofun,
      occurrences_cons hl nofun, occurrences_cons hk nofun,
      h.occurrences_eq (p ++ [(i, .alternative)]) 0 rest, alternativeMentions_single, Node.mentions]

end

/-- **The mentions of a template are the variables among its tokens**, in their order. -/
theorem Derives.occurrences_eq {template : Template} (h : Derives ts template) :
    occurrences ts = template.mentions.map Mention.occurrence := by
  obtain ⟨pos, nodes⟩ := template
  obtain ⟨items, finish, Γ, rfl, hfinish, -, hitems⟩ := h
  rw [hitems.occurrences_eq [] 0, occurrences_cons hfinish nofun, occurrences, List.append_nil]
  rfl

/-! ## What is declared before a use -/

/-- A variable that may be used at a place behind `before`: the root, or one that is declared there
and reaches the place. -/
def Supplied (before : List Mention) (p : Place) (name : String) : Prop :=
  name = rootVariable ∨
    ∃ m ∈ before, m.declares = true ∧ m.name = name ∧ m.place.Reaches p

/-- Every variable in scope may be used at the place. -/
def Supplies (before : List Mention) (p : Place) (Γ : Scope) : Prop :=
  ∀ name ∈ Γ, Supplied before p name

/-- Behind `before`, every mention that only uses its variable may do so where it stands. -/
def Bound (before : List Mention) : List Mention → Prop
  | [] => True
  | m :: rest =>
    (m.declares = false → Supplied before m.place m.name) ∧ Bound (before ++ [m]) rest

theorem bound_append : ∀ {before ms ns : List Mention},
    Bound before (ms ++ ns) ↔ Bound before ms ∧ Bound (before ++ ms) ns
  | before, [], ns => by simp [Bound]
  | before, m :: ms, ns => by
    rw [List.cons_append, Bound, Bound, bound_append, List.append_assoc, List.singleton_append,
      and_assoc]

theorem Supplied.append {before more : List Mention} {p : Place} {name : String}
    (h : Supplied before p name) : Supplied (before ++ more) p name :=
  h.imp_right fun ⟨m, hm, hrest⟩ => ⟨m, List.mem_append_left more hm, hrest⟩

theorem Supplies.append {before more : List Mention} {p : Place} (h : Supplies before p Γ) :
    Supplies (before ++ more) p Γ :=
  fun name hname => (h name hname).append

/-- Where all that reaches one place reaches another, the second is supplied like the first. -/
theorem Supplies.imp {before : List Mention} {p q : Place} (h : Supplies before p Γ)
    (hreach : ∀ m : Mention, m.place.Reaches p → m.place.Reaches q) : Supplies before q Γ :=
  fun name hname => (h name hname).imp_right fun ⟨m, hm, hdeclares, hsame, hplace⟩ =>
    ⟨m, hm, hdeclares, hsame, hreach m hplace⟩

/-- The mentions of a phrase with the scopes before and after it: where the scope before is supplied,
each use is, and behind them the scope after is supplied. -/
def Keeps (p : Place) (Γ : Scope) (ms : List Mention) (Δ : Scope) : Prop :=
  ∀ before, Supplies before p Γ → Bound before ms ∧ Supplies (before ++ ms) p Δ

namespace Keeps

variable {p : Place} {Γ Δ Θ : Scope} {ms ns : List Mention}

theorem nil (p : Place) (Γ : Scope) : Keeps p Γ [] Γ := by
  intro before h
  rw [List.append_nil]
  exact ⟨trivial, h⟩

/-- A phrase and the one that follows it. -/
theorem append (h : Keeps p Γ ms Δ) (h' : Keeps p Δ ns Θ) : Keeps p Γ (ms ++ ns) Θ := by
  intro before hbefore
  obtain ⟨hms, hmiddle⟩ := h before hbefore
  obtain ⟨hns, hafter⟩ := h' (before ++ ms) hmiddle
  rw [bound_append, ← List.append_assoc]
  exact ⟨⟨hms, hns⟩, hafter⟩

/-- A declaration brings its name into scope. -/
theorem declare (p : Place) (Γ : Scope) (name : String) (pos : Pos) :
    Keeps p Γ [⟨p, true, name, pos⟩] (name :: Γ) := by
  intro before h
  refine ⟨⟨nofun, trivial⟩, fun x hx => ?_⟩
  rcases List.mem_cons.mp hx with rfl | hx
  · exact .inr ⟨_, List.mem_append_right _ (List.mem_singleton_self _), rfl, rfl, .refl p⟩
  · exact (h x hx).append

/-- A use needs its name in scope. -/
theorem use (p : Place) {name : String} (pos : Pos) (hname : name ∈ Γ) :
    Keeps p Γ [⟨p, false, name, pos⟩] Γ := by
  intro before h
  exact ⟨⟨fun _ => h name hname, trivial⟩, h.append⟩

end Keeps

theorem IsDeclared.keeps {context : Context} {assigns : Bool} {declared : List DeclaredVariable}
    (h : IsDeclared context Γ ts assigns declared Δ) (p : Place) :
    Keeps p Γ (declared.map fun v => ⟨p, !assigns, v.name, v.pos⟩) Δ := by
  cases h with
  | none => exact .nil p Γ
  | declare => exact .declare p Γ _ _
  | assign _ _ hx => exact .use p _ hx
  | declareTwo => exact (Keeps.declare p Γ _ _).append (.declare p _ _ _)
  | assignTwo _ _ _ _ _ hx hy => exact (Keeps.use p _ hx).append (.use p _ hy)

theorem IsAtom.keeps {t : Token} {a : Operand} (h : IsAtom Γ t a) (p : Place) :
    Keeps p Γ (a.mentions p) Γ := by
  cases h with
  | var hx => exact .use p _ hx
  | _ => exact .nil p Γ

mutual

theorem IsTerm.keeps : ∀ {d : Nat} {Γ Δ : Scope} {ts : List Token} {a : Operand},
    IsTerm d Γ ts a Δ → ∀ p : Place, Keeps p Γ (a.mentions p) Δ
  | _, _, _, _, _, .atom h, p => h.keeps p
  | _, _, _, _, _, .group _ _ hp _, p => by
    rw [Operand.mentions]
    exact hp.keeps p

theorem IsOperand.keeps : ∀ {d : Nat} {Γ Δ : Scope} {ts : List Token} {a : Operand},
    IsOperand d Γ ts a Δ → ∀ p : Place, Keeps p Γ (a.mentions p) Δ
  | _, _, _, _, _, .mk ht _ ha, p => by
    rw [ha.mentions p]
    exact ht.keeps p

theorem IsCommand.keeps : ∀ {d : Nat} {Γ Δ : Scope} {ts : List Token} {args : List Operand},
    IsCommand d Γ ts args Δ → ∀ p : Place, Keeps p Γ (operandsMentions p args) Δ
  | _, _, _, _, _, .one h, p => (h.keeps p).append (.nil p _)
  | _, _, _, _, _, .cons h _ hmore, p => (h.keeps p).append (hmore.keeps p)

theorem IsCommands.keeps : ∀ {d : Nat} {Γ Δ : Scope} {ts : List Token}
    {commands : List (Command Operand)}, IsCommands d Γ ts commands Δ →
    ∀ p : Place, Keeps p Γ (commandsMentions p commands) Δ
  | _, _, _, _, _, .one h _, p => (h.keeps p).append (.nil p _)
  | _, _, _, _, _, .cons h _ _ hmore, p => (h.keeps p).append (hmore.keeps p)

/-- **Within a pipeline** scope is what was declared before. -/
theorem IsPipeline.keeps : ∀ {context : Context} {d : Nat} {Γ Δ : Scope} {ts : List Token}
    {pipe : Pipeline Operand}, IsPipeline context d Γ ts pipe Δ →
    ∀ p : Place, Keeps p Γ (pipelineMentions p pipe) Δ
  | _, _, _, _, _, _, .mk hd hc _, p => (hd.keeps p).append (hc.keeps p)

end

/-- The parts of the item with a number: what stands in scope before the item does so in all of them,
what the pipeline declares in the body and the alternative, and what the body declares in the
alternative. -/
theorem Keeps.parts {p : Place} {i : Nat} {Γ Δ Θ Λ : Scope} {hs bs as : List Mention}
    (hhead : Keeps (p ++ [(i, .head)]) Γ hs Δ) (hbody : Keeps (p ++ [(i, .body)]) Δ bs Θ)
    (halternative : Keeps (p ++ [(i, .alternative)]) Θ as Λ) :
    Keeps p Γ (hs ++ (bs ++ as)) Γ := by
  intro before hbefore
  obtain ⟨hhs, hΔ⟩ := hhead before (hbefore.imp fun _ h => h.inner _)
  obtain ⟨hbs, hΘ⟩ := hbody (before ++ hs) (hΔ.imp fun _ h => h.of_head .body)
  obtain ⟨has, -⟩ := halternative (before ++ hs ++ bs) (hΘ.imp fun _ h => h.of_body)
  rw [bound_append, bound_append]
  exact ⟨⟨hhs, hbs, has⟩, hbefore.append⟩

mutual

theorem IsItem.keeps : ∀ {d : Nat} {loop : Bool} {Γ Δ : Scope} {ts : List Token} {node : Node},
    IsItem d loop Γ ts node Δ → ∀ (p : Place) (i : Nat), Keeps p Γ (node.mentions p i) Δ
  | _, _, _, _, _, _, .text _, p, _ => .nil p _
  | _, _, _, _, _, _, .action _ hp _, p, _ => hp.keeps p
  | _, _, _, _, _, _, .template _ _ _ _, p, _ => .nil p _
  | _, _, _, _, _, _, .templateWith _ _ _ hp _, p, _ => hp.keeps p
  | _, _, _, _, _, _, .leave _, p, _ => .nil p _
  | _, _, _, _, _, _, .skip _, p, _ => .nil p _
  | _, _, _, _, _, _, .branch _ _ h, p, i => h.keeps p i

theorem IsItems.keeps : ∀ {d : Nat} {loop : Bool} {Γ Δ : Scope} {ts : List Token}
    {nodes : List Node}, IsItems d loop Γ ts nodes Δ →
    ∀ (p : Place) (i : Nat), Keeps p Γ (nodesMentions p i nodes) Δ
  | _, _, _, _, _, _, .nil, p, _ => .nil p _
  | _, _, _, _, _, _, .cons h hmore, p, i => (h.keeps p i).append (hmore.keeps p (i + 1))

/-- **Behind a control structure** scope is what it was before. -/
theorem IsStructure.keeps : ∀ {kind : BranchKind} {d : Nat} {loop : Bool} {Γ : Scope}
    {ts : List Token} {pipe : Pipeline Operand} {body : NodeList Node}
    {alternative : Option (NodeList Node)}, IsStructure kind d loop Γ ts pipe body alternative →
    ∀ (p : Place) (i : Nat), Keeps p Γ
      (pipelineMentions (p ++ [(i, .head)]) pipe ++ (listMentions (p ++ [(i, .body)]) body ++
        alternativeMentions (p ++ [(i, .alternative)]) alternative)) Γ
  | _, _, _, _, _, _, _, _, .mk _ hp _ hb hr _, p, i => by
    obtain ⟨Λ, htail⟩ := hr.keeps (p ++ [(i, .alternative)])
    exact .parts (hp.keeps _) (hb.keeps _ 0) htail

theorem IsTail.keeps : ∀ {kind : BranchKind} {d : Nat} {loop : Bool} {Γ : Scope}
    {ts : List Token} {alternative : Option (NodeList Node)},
    IsTail kind d loop Γ ts alternative →
    ∀ p : Place, ∃ Λ, Keeps p Γ (alternativeMentions p alternative) Λ
  | _, _, _, Γ, _, _, .plain _, p => ⟨Γ, .nil p Γ⟩
  | _, _, _, _, _, _, .divided _ ho _ _, p => ⟨_, ho.keeps p 0⟩
  | _, _, _, Γ, _, _, .chained _ _ _ _ h, p => by
    refine ⟨Γ, ?_⟩
    rw [alternativeMentions_single, Node.mentions]
    exact h.keeps p 0

end

/-- **In a derived template every use is supplied** by the mentions before it. -/
theorem Derives.bound {template : Template} (h : Derives ts template) :
    Bound [] template.mentions := by
  obtain ⟨pos, nodes⟩ := template
  obtain ⟨items, finish, Γ, rfl, -, -, hitems⟩ := h
  have hroot : Supplies [] [] [rootVariable] :=
    fun name hname => .inl (List.mem_singleton.mp hname)
  exact (hitems.keeps [] 0 [] hroot).1

/-- What is bound is supplied by what stands before it. -/
theorem Bound.supplied {before after : List Mention} {m : Mention}
    (h : Bound [] (before ++ m :: after)) (hm : m.declares = false) :
    Supplied before m.place m.name :=
  (bound_append.mp h).2.1 hm

end Grammar

section Template

open Grammar

/-- **Every variable that is used was declared before, where its declaration reaches.** From a
source that is read as a template, take the variables in order: they are those of its tokens, with
those declared that `:=` declares. For each other one but the root, a variable of the same name is
declared earlier in the source. Its declaration stands in the same list of items or one around it, in
the pipeline of a structure around it, or in the body of a structure whose alternative the use
stands in. -/
theorem Template.mentions_supplied {source : String} {scan : Scan} {template : Template}
    (hscan : Scan.ofSource source = .ok scan) (htemplate : Template.ofScan scan = .ok template) :
    template.mentions.map Mention.occurrence = occurrences scan.tokens ∧
      ∀ before use after, template.mentions = before ++ use :: after → use.declares = false →
        use.name ≠ rootVariable →
        ∃ m ∈ before, m.declares = true ∧ m.name = use.name ∧
          (m.place.Encloses use.place ∨ m.place.BodyBefore use.place) := by
  have hderives := (Template.ofScan_eq_ok_iff (Scan.wellFormed_of_ofSource hscan)).mp htemplate
  refine ⟨hderives.occurrences_eq.symm, fun before use after hsplit huse hroot => ?_⟩
  have hbound := hderives.bound
  rw [hsplit] at hbound
  exact (hbound.supplied huse).resolve_left hroot

/-- A variable of the template is used in the alternative of a range, and one that is declared in
parentheses behind them. -/
theorem Template.mentions_supplied_range :
    let source := "\x7b\x7b$x := .A\x7d\x7d\x7b\x7brange $i, $e := .B\x7d\x7d" ++
      "\x7b\x7blen ($y := $e) | print $y\x7d\x7d\x7b\x7belse\x7d\x7d\x7b\x7b$x\x7d\x7d" ++
      "\x7b\x7bend\x7d\x7d"
    let inside : Place := [(1, .body)]
    ∃ scan template, Scan.ofSource source = .ok scan ∧ Template.ofScan scan = .ok template ∧
      template.mentions.map Mention.occurrence = occurrences scan.tokens ∧
      ∃ before after, template.mentions = before ++ ⟨inside, false, "$y", ⟨1, 60⟩⟩ :: after ∧
        ∃ m ∈ before, m.declares = true ∧ m.name = "$y" ∧
          (m.place.Encloses inside ∨ m.place.BodyBefore inside) := by
  intro source inside
  obtain ⟨scan, hscan, hany⟩ := exists_ok_of_any (x := Scan.ofSource source) (p := fun scan =>
    (Template.ofScan scan).toOption.any fun template => template.mentions ==
      [⟨[], true, "$x", ⟨1, 3⟩⟩, ⟨[(1, .head)], true, "$i", ⟨1, 21⟩⟩,
        ⟨[(1, .head)], true, "$e", ⟨1, 25⟩⟩, ⟨inside, true, "$y", ⟨1, 42⟩⟩,
        ⟨inside, false, "$e", ⟨1, 48⟩⟩, ⟨inside, false, "$y", ⟨1, 60⟩⟩,
        ⟨[(1, .alternative)], false, "$x", ⟨1, 74⟩⟩]) (by decide +kernel)
  obtain ⟨template, htemplate, hmentions⟩ := exists_ok_of_any hany
  have hsplit := beq_iff_eq.mp hmentions
  obtain ⟨hoccurrences, hsupplied⟩ := mentions_supplied hscan htemplate
  exact ⟨scan, template, hscan, htemplate, hoccurrences, _, _, hsplit,
    hsupplied (_ :: _ :: _ :: _ :: [_]) _ _ hsplit rfl (by decide)⟩

/-- It is not so that the place of the declaration always encloses that of the use: the alternative
of a structure may use what its body declares. -/
theorem Template.not_mentions_enclosed :
    ¬ ∀ (source : String) (scan : Scan) (template : Template),
      Scan.ofSource source = .ok scan → Template.ofScan scan = .ok template →
      ∀ before use after, template.mentions = before ++ use :: after → use.declares = false →
        use.name ≠ rootVariable →
        ∃ m ∈ before, m.declares = true ∧ m.name = use.name ∧ m.place.Encloses use.place := by
  intro henclosed
  obtain ⟨scan, hscan, hany⟩ := exists_ok_of_any
    (x := Scan.ofSource ("\x7b\x7bif .A\x7d\x7d\x7b\x7b$x := .B\x7d\x7d\x7b\x7belse\x7d\x7d" ++
      "\x7b\x7b$x\x7d\x7d\x7b\x7bend\x7d\x7d"))
    (p := fun scan => (Template.ofScan scan).toOption.any fun template => template.mentions ==
      [⟨[(0, .body)], true, "$x", ⟨1, 12⟩⟩, ⟨[(0, .alternative)], false, "$x", ⟨1, 32⟩⟩])
    (by decide +kernel)
  obtain ⟨template, htemplate, hmentions⟩ := exists_ok_of_any hany
  have hsplit := beq_iff_eq.mp hmentions
  obtain ⟨m, hm, -, -, hplace⟩ :=
    henclosed _ scan template hscan htemplate [_] _ [] hsplit rfl (by decide)
  rw [List.mem_singleton.mp hm] at hplace
  rcases hplace with hprefix | ⟨outer, i, part, hhead, -⟩
  · exact absurd hprefix (by decide)
  · have hparts : [] ++ [(0, Part.body)] = outer ++ [(i, Part.head)] := hhead
    cases (List.append_inj' hparts rfl).2

end Template

end Fieldwise
