import Fieldwise.Proofs.Template.Segments
import Fieldwise.Template.Structure

/-!
# The grammar of templates

The grammar is a family of relations between tokens and what they stand for, one for each sort
of phrase: an operand, a command, a pipeline, an item, a list of items, a control structure.
Each relation also says which variables are in scope before and after its tokens, latest first,
and how many control structures and parentheses stand around them.

* `Grammar.IsOperand` : a term and the fields written behind it without space.
* `Grammar.IsPipeline` : declarations, and commands joined by bars.
* `Grammar.IsItem`, `Grammar.IsItems` : text, actions and control structures in a row.
* `Grammar.IsStructure`, `Grammar.IsTail` : what follows the keyword of a control structure, and
  what follows its body.
* `Grammar.Derives` : the tokens of a whole template.

The rules do not say in which order tokens are looked at, nor what is tried first. That the
tokens of a template can be read in one way only is a consequence of reading them
(`Proofs/Template/Structure`).
-/

set_option autoImplicit false

namespace Fieldwise

namespace Grammar

/-- The tokens are not empty, and the first stands at `pos`. -/
def StartsAt (ts : List Token) (pos : Pos) : Prop :=
  ts.head?.map Token.pos = some pos

/-! ## Operands and pipelines -/

/-- One token that is an operand by itself, with the variables `Γ` in scope. -/
inductive IsAtom (Γ : Scope) : Token → Operand → Prop
  | identifier {name : String} {pos : Pos} {space : Bool} (h : isFunction name = true) :
      IsAtom Γ ⟨.identifier name, pos, space⟩ (.identifier pos name)
  | dot {pos : Pos} {space : Bool} : IsAtom Γ ⟨.dot, pos, space⟩ (.dot pos)
  | nil {pos : Pos} {space : Bool} : IsAtom Γ ⟨.nil, pos, space⟩ (.nil pos)
  | bool {value : Bool} {pos : Pos} {space : Bool} :
      IsAtom Γ ⟨.bool value, pos, space⟩ (.bool pos value)
  | var {name : String} {pos : Pos} {space : Bool} (h : name ∈ Γ) :
      IsAtom Γ ⟨.var name, pos, space⟩ (.var pos name [])
  | field {name : String} {pos : Pos} {space : Bool} :
      IsAtom Γ ⟨.field name, pos, space⟩ (.field pos [name])
  | string {text : String} {pos : Pos} {space : Bool} :
      IsAtom Γ ⟨.string text, pos, space⟩ (.string pos text)
  | number {text : String} {pos : Pos} {space : Bool} :
      IsAtom Γ ⟨.number text, pos, space⟩ (.number pos text)

/-- Fields, none with space before it. -/
inductive IsFields : List Token → List String → Prop
  | nil : IsFields [] []
  | cons {name : String} {pos : Pos} {ts : List Token} {names : List String}
      (h : IsFields ts names) : IsFields (⟨.field name, pos, false⟩ :: ts) (name :: names)

/-- The operand that a term becomes by the fields behind it. Only a field, a variable, an
identifier and a pipeline in parentheses take fields. -/
inductive Attached : Operand → List String → Operand → Prop
  | bare (term : Operand) : Attached term [] term
  | field {pos : Pos} {names fields : List String} (h : fields ≠ []) :
      Attached (.field pos names) fields (.field pos (names ++ fields))
  | var {pos : Pos} {name : String} {more fields : List String} (h : fields ≠ []) :
      Attached (.var pos name more) fields (.var pos name (more ++ fields))
  | identifier {pos : Pos} {name : String} {fields : List String} (h : fields ≠ []) :
      Attached (.identifier pos name) fields (.chain (.identifier pos name) fields)
  | group {pipe : Pipeline Operand} {fields : List String} (h : fields ≠ []) :
      Attached (.group pipe) fields (.chain (.group pipe) fields)

/-- The declarations at the head of a pipeline: none, or one variable and its mark, or, in the
pipeline of a range, two. A variable that is assigned must be in scope, one that is declared
comes into scope. -/
inductive IsDeclared (context : Context) (Γ : Scope) :
    List Token → Bool → List DeclaredVariable → Scope → Prop
  | none : IsDeclared context Γ [] false [] Γ
  | declare {x : String} {v mark : Token} (hv : v.kind = .var x) (hm : mark.kind = .declare) :
      IsDeclared context Γ [v, mark] false [⟨v.pos, x⟩] (x :: Γ)
  | assign {x : String} {v mark : Token} (hv : v.kind = .var x) (hm : mark.kind = .assign)
      (hx : x ∈ Γ) : IsDeclared context Γ [v, mark] true [⟨v.pos, x⟩] Γ
  | declareTwo {x y : String} {v comma w mark : Token} (hrange : context = .opening .range)
      (hv : v.kind = .var x) (hc : comma.kind = .comma) (hw : w.kind = .var y)
      (hm : mark.kind = .declare) :
      IsDeclared context Γ [v, comma, w, mark] false [⟨v.pos, x⟩, ⟨w.pos, y⟩] (y :: x :: Γ)
  | assignTwo {x y : String} {v comma w mark : Token} (hrange : context = .opening .range)
      (hv : v.kind = .var x) (hc : comma.kind = .comma) (hw : w.kind = .var y)
      (hm : mark.kind = .assign) (hx : x ∈ Γ) (hy : y ∈ Γ) :
      IsDeclared context Γ [v, comma, w, mark] true [⟨v.pos, x⟩, ⟨w.pos, y⟩] Γ

mutual

/-- A single token, or a pipeline in parentheses. -/
inductive IsTerm : Nat → Scope → List Token → Operand → Scope → Prop
  | atom {d : Nat} {Γ : Scope} {t : Token} {a : Operand} (h : IsAtom Γ t a) : IsTerm d Γ [t] a Γ
  | group {d : Nat} {Γ Δ : Scope} {opening closing : Token} {ts : List Token}
      {pipe : Pipeline Operand} (hd : d < maxNesting) (ho : opening.kind = .leftParen)
      (hp : IsPipeline .parentheses (d + 1) Γ ts pipe Δ) (hc : closing.kind = .rightParen) :
      IsTerm d Γ (opening :: (ts ++ [closing])) (.group pipe) Δ

/-- A term and the fields behind it. -/
inductive IsOperand : Nat → Scope → List Token → Operand → Scope → Prop
  | mk {d : Nat} {Γ Δ : Scope} {ts fs : List Token} {term a : Operand} {fields : List String}
      (ht : IsTerm d Γ ts term Δ) (hf : IsFields fs fields) (ha : Attached term fields a) :
      IsOperand d Γ (ts ++ fs) a Δ

/-- The operands of a command: one or more, each after the first with space before it. -/
inductive IsCommand : Nat → Scope → List Token → List Operand → Scope → Prop
  | one {d : Nat} {Γ Δ : Scope} {ts : List Token} {a : Operand} (h : IsOperand d Γ ts a Δ) :
      IsCommand d Γ ts [a] Δ
  | cons {d : Nat} {Γ Δ Θ : Scope} {t : Token} {ts us : List Token} {a : Operand}
      {args : List Operand} (h : IsOperand d Γ ts a Δ) (ht : t.spaceBefore = true)
      (hrest : IsCommand d Δ (t :: us) args Θ) : IsCommand d Γ (ts ++ t :: us) (a :: args) Θ

/-- One or more commands joined by bars. -/
inductive IsCommands : Nat → Scope → List Token → List (Command Operand) → Scope → Prop
  | one {d : Nat} {Γ Δ : Scope} {ts : List Token} {pos : Pos} {args : List Operand}
      (h : IsCommand d Γ ts args Δ) (hpos : StartsAt ts pos) :
      IsCommands d Γ ts [⟨pos, args⟩] Δ
  | cons {d : Nat} {Γ Δ Θ : Scope} {bar : Token} {ts us : List Token} {pos : Pos}
      {args : List Operand} {commands : List (Command Operand)} (h : IsCommand d Γ ts args Δ)
      (hpos : StartsAt ts pos) (hbar : bar.kind = .pipe) (hrest : IsCommands d Δ us commands Θ) :
      IsCommands d Γ (ts ++ bar :: us) (⟨pos, args⟩ :: commands) Θ

/-- Declarations and commands. -/
inductive IsPipeline : Context → Nat → Scope → List Token → Pipeline Operand → Scope → Prop
  | mk {context : Context} {d : Nat} {Γ Δ Θ : Scope} {ds ts : List Token} {pos : Pos}
      {assigns : Bool} {declared : List DeclaredVariable} {commands : List (Command Operand)}
      (hd : IsDeclared context Γ ds assigns declared Δ) (hc : IsCommands d Δ ts commands Θ)
      (hpos : StartsAt (ds ++ ts) pos) :
      IsPipeline context d Γ (ds ++ ts) ⟨pos, assigns, declared, commands⟩ Θ

end

/-! ## Items and control structures -/

/-- The action at `pos` that is the word `k` alone. -/
inductive IsWord (k : Keyword) : Pos → List Token → Prop
  | mk {opening word closing : Token} (ho : opening.kind = .leftDelim)
      (hw : word.kind = .keyword k) (hc : closing.kind = .rightDelim) :
      IsWord k opening.pos [opening, word, closing]

mutual

/-- A part of a template. The flag says whether a range stands around it. -/
inductive IsItem : Nat → Bool → Scope → List Token → Node → Scope → Prop
  | text {d : Nat} {loop : Bool} {Γ : Scope} {t : Token} {s : String} (h : t.kind = .text s) :
      IsItem d loop Γ [t] (.text t.pos s) Γ
  | action {d : Nat} {loop : Bool} {Γ Δ : Scope} {opening closing : Token} {ts : List Token}
      {pipe : Pipeline Operand} (ho : opening.kind = .leftDelim)
      (hp : IsPipeline .command d Γ ts pipe Δ) (hc : closing.kind = .rightDelim) :
      IsItem d loop Γ (opening :: (ts ++ [closing])) (.action opening.pos pipe) Δ
  | template {d : Nat} {loop : Bool} {Γ : Scope} {opening word title closing : Token}
      {name : String} (ho : opening.kind = .leftDelim) (hw : word.kind = .keyword .templateWord)
      (ht : title.kind = .string name) (hc : closing.kind = .rightDelim) :
      IsItem d loop Γ [opening, word, title, closing] (.template opening.pos name none) Γ
  | templateWith {d : Nat} {loop : Bool} {Γ Δ : Scope} {opening word title closing : Token}
      {ts : List Token} {name : String} {pipe : Pipeline Operand}
      (ho : opening.kind = .leftDelim) (hw : word.kind = .keyword .templateWord)
      (ht : title.kind = .string name) (hp : IsPipeline .templateClause d Γ ts pipe Δ)
      (hc : closing.kind = .rightDelim) :
      IsItem d loop Γ (opening :: word :: title :: (ts ++ [closing]))
        (.template opening.pos name (some pipe)) Δ
  | leave {d : Nat} {Γ : Scope} {ts : List Token} {pos : Pos} (h : IsWord .breakWord pos ts) :
      IsItem d true Γ ts (.leave pos) Γ
  | skip {d : Nat} {Γ : Scope} {ts : List Token} {pos : Pos} (h : IsWord .continueWord pos ts) :
      IsItem d true Γ ts (.skip pos) Γ
  | branch {kind : BranchKind} {d : Nat} {loop : Bool} {Γ : Scope} {opening word : Token}
      {ts : List Token} {pipe : Pipeline Operand} {body : NodeList Node}
      {alternative : Option (NodeList Node)} (ho : opening.kind = .leftDelim)
      (hw : word.kind = .keyword kind.keyword)
      (h : IsStructure kind d loop Γ ts pipe body alternative) :
      IsItem d loop Γ (opening :: word :: ts)
        (.branch kind opening.pos pipe body alternative) Γ

/-- Parts in a row; what one declares is in scope for the next. -/
inductive IsItems : Nat → Bool → Scope → List Token → List Node → Scope → Prop
  | nil {d : Nat} {loop : Bool} {Γ : Scope} : IsItems d loop Γ [] [] Γ
  | cons {d : Nat} {loop : Bool} {Γ Δ Θ : Scope} {ts us : List Token} {node : Node}
      {nodes : List Node} (h : IsItem d loop Γ ts node Δ)
      (hrest : IsItems d loop Δ us nodes Θ) : IsItems d loop Γ (ts ++ us) (node :: nodes) Θ

/-- What follows the keyword of a control structure: its pipeline, the body, and the tail. -/
inductive IsStructure : BranchKind → Nat → Bool → Scope → List Token → Pipeline Operand →
    NodeList Node → Option (NodeList Node) → Prop
  | mk {kind : BranchKind} {d : Nat} {loop : Bool} {Γ Δ Θ : Scope} {closing : Token}
      {ps bs rs : List Token} {pipe : Pipeline Operand} {nodes : List Node} {pos : Pos}
      {alternative : Option (NodeList Node)} (hd : d < maxNesting)
      (hp : IsPipeline (.opening kind) (d + 1) Γ ps pipe Δ) (hc : closing.kind = .rightDelim)
      (hb : IsItems (d + 1) (loop || kind = .range) Δ bs nodes Θ)
      (hr : IsTail kind (d + 1) (loop || kind = .range) Θ rs alternative)
      (hpos : StartsAt (bs ++ rs) pos) :
      IsStructure kind d loop Γ (ps ++ closing :: (bs ++ rs)) pipe ⟨pos, nodes⟩ alternative

/-- What follows the body of a control structure, up to its end. An `else` may stand before the
end, alone or, where the structure is no range, followed by its keyword again; what follows
then is nested one level deeper, and both share the end. -/
inductive IsTail : BranchKind → Nat → Bool → Scope → List Token → Option (NodeList Node) → Prop
  | plain {kind : BranchKind} {d : Nat} {loop : Bool} {Γ : Scope} {es : List Token} {pos : Pos}
      (he : IsWord .endWord pos es) : IsTail kind d loop Γ es none
  | divided {kind : BranchKind} {d : Nat} {loop : Bool} {Γ Δ : Scope} {ls os es : List Token}
      {nodes : List Node} {elsePos endPos pos : Pos} (hl : IsWord .elseWord elsePos ls)
      (ho : IsItems d loop Γ os nodes Δ) (he : IsWord .endWord endPos es)
      (hpos : StartsAt (os ++ es) pos) :
      IsTail kind d loop Γ (ls ++ (os ++ es)) (some ⟨pos, nodes⟩)
  | chained {kind : BranchKind} {d : Nat} {loop : Bool} {Γ : Scope}
      {opening word again : Token} {ts : List Token} {pipe : Pipeline Operand}
      {body : NodeList Node} {alternative : Option (NodeList Node)}
      (ho : opening.kind = .leftDelim) (hl : word.kind = .keyword .elseWord)
      (hk : again.kind = .keyword kind.keyword) (hrange : kind ≠ .range)
      (h : IsStructure kind d loop Γ ts pipe body alternative) :
      IsTail kind d loop Γ (opening :: word :: again :: ts)
        (some ⟨opening.pos, [.branch kind opening.pos pipe body alternative]⟩)

end

/-- The tokens of a whole template: items, and the token for the end of the source. -/
def Derives (ts : List Token) (template : Template) : Prop :=
  ∃ (items : List Token) (finish : Token) (Γ : Scope), ts = items ++ [finish] ∧
    finish.kind = .eof ∧ StartsAt ts template.pos ∧
    IsItems 0 false [rootVariable] items template.nodes Γ

/-! ## Where phrases start -/

theorem StartsAt.of_append {us vs : List Token} {pos : Pos} (hne : us ≠ [])
    (h : StartsAt (us ++ vs) pos) : StartsAt us pos := by
  cases us with
  | nil => exact absurd rfl hne
  | cons => exact h

theorem StartsAt.unique {us : List Token} {p q : Pos} (hp : StartsAt us p) (hq : StartsAt us q) :
    p = q :=
  Option.some.inj (hp.symm.trans hq)

/-! ## What phrases begin with -/

/-- A token that an operand can begin with. -/
def startsOperand : TokenKind → Bool
  | .identifier _ | .dot | .nil | .bool _ | .var _ | .field _ | .string _ | .number _
  | .leftParen => true
  | _ => false

/-- A token that makes the variable before it a declared or an assigned one. -/
def isMark : TokenKind → Bool
  | .declare | .assign | .comma => true
  | _ => false

/-- If there is a first token, it is no mark. -/
def NoMark (ts : List Token) : Prop :=
  ∀ t ∈ ts.head?, isMark t.kind = false

variable {Γ Δ : Scope} {d : Nat} {ts : List Token}

theorem IsAtom.startsOperand {t : Token} {a : Operand} (h : IsAtom Γ t a) :
    startsOperand t.kind = true := by
  cases h <;> rfl

theorem IsTerm.head {a : Operand} (h : IsTerm d Γ ts a Δ) :
    ∃ t us, ts = t :: us ∧ startsOperand t.kind = true := by
  cases h with
  | atom h => exact ⟨_, [], rfl, h.startsOperand⟩
  | group _ ho => exact ⟨_, _, rfl, by rw [ho]; rfl⟩

theorem IsOperand.head {a : Operand} (h : IsOperand d Γ ts a Δ) :
    ∃ t us, ts = t :: us ∧ startsOperand t.kind = true := by
  cases h with
  | mk ht =>
    obtain ⟨t, us, rfl, hstart⟩ := ht.head
    exact ⟨t, _, rfl, hstart⟩

theorem IsCommand.head {args : List Operand} (h : IsCommand d Γ ts args Δ) :
    ∃ t us, ts = t :: us ∧ startsOperand t.kind = true := by
  cases h with
  | one h => exact h.head
  | cons h =>
    obtain ⟨t, us, rfl, hstart⟩ := h.head
    exact ⟨t, _, rfl, hstart⟩

theorem IsCommands.head {commands : List (Command Operand)} (h : IsCommands d Γ ts commands Δ) :
    ∃ t us, ts = t :: us ∧ startsOperand t.kind = true := by
  cases h with
  | one h => exact h.head
  | cons h =>
    obtain ⟨t, us, rfl, hstart⟩ := h.head
    exact ⟨t, _, rfl, hstart⟩

theorem noMark_cons {t : Token} (us : List Token) (h : isMark t.kind = false) :
    NoMark (t :: us) := by
  intro t' ht
  cases ht
  exact h

theorem isMark_of_startsOperand {kind : TokenKind} (h : startsOperand kind = true) :
    isMark kind = false := by
  cases kind <;> simp_all [startsOperand, isMark]

theorem IsFields.noMark {fs rest : List Token} {names : List String} (h : IsFields fs names)
    (hrest : NoMark rest) : NoMark (fs ++ rest) := by
  cases h with
  | nil => exact hrest
  | cons => exact noMark_cons _ rfl

/-- A term that begins with a variable is nothing but this variable. -/
theorem IsTerm.eq_nil_of_var {v : Token} {us : List Token} {a : Operand} {x : String}
    (h : IsTerm d Γ (v :: us) a Δ) (hv : v.kind = .var x) : us = [] := by
  cases h with
  | atom => rfl
  | group _ ho => cases ho.symm.trans hv

/-- No mark follows a variable that an operand begins with. -/
theorem IsOperand.noMark {v : Token} {us rest : List Token} {a : Operand} {x : String}
    (h : IsOperand d Γ (v :: us) a Δ) (hv : v.kind = .var x) (hrest : NoMark rest) :
    NoMark (us ++ rest) := by
  generalize hts : v :: us = ts at h
  cases h with
  | mk ht hf ha =>
    obtain ⟨t, us', rfl, _⟩ := ht.head
    obtain ⟨rfl, rfl⟩ := List.cons.inj hts
    rw [ht.eq_nil_of_var hv]
    exact hf.noMark hrest

theorem IsCommand.noMark {v : Token} {us rest : List Token} {args : List Operand} {x : String}
    (h : IsCommand d Γ (v :: us) args Δ) (hv : v.kind = .var x) (hrest : NoMark rest) :
    NoMark (us ++ rest) := by
  generalize hts : v :: us = ts at h
  cases h with
  | one h =>
    subst hts
    exact h.noMark hv hrest
  | cons h ht hmore =>
    obtain ⟨t', us', rfl, _⟩ := h.head
    obtain ⟨rfl, rfl⟩ := List.cons.inj (hts.trans (List.cons_append ..))
    obtain ⟨_, _, heq, hstart⟩ := hmore.head
    obtain ⟨rfl, rfl⟩ := List.cons.inj heq
    rw [List.append_assoc]
    exact h.noMark hv (noMark_cons _ (isMark_of_startsOperand hstart))

theorem IsCommands.noMark {v : Token} {us rest : List Token} {commands : List (Command Operand)}
    {x : String} (h : IsCommands d Γ (v :: us) commands Δ) (hv : v.kind = .var x)
    (hrest : NoMark rest) : NoMark (us ++ rest) := by
  generalize hts : v :: us = ts at h
  cases h with
  | one h =>
    subst hts
    exact h.noMark hv hrest
  | cons h _ hbar =>
    obtain ⟨t', us', rfl, _⟩ := h.head
    obtain ⟨rfl, rfl⟩ := List.cons.inj (hts.trans (List.cons_append ..))
    rw [List.append_assoc]
    exact h.noMark hv (noMark_cons _ (by rw [hbar]; rfl))

theorem IsTerm.ne_chain {term : Operand} (h : IsTerm d Γ ts term Δ) (base : Operand)
    (names : List String) : term ≠ .chain base names := by
  cases h with
  | atom h => cases h <;> nofun
  | group => nofun

/-- No pipeline begins with a keyword. -/
theorem IsPipeline.kind_ne_keyword {context : Context} {t : Token}
    {pipe : Pipeline Operand} (h : IsPipeline context d Γ (t :: ts) pipe Δ) (k : Keyword) :
    t.kind ≠ .keyword k := by
  generalize hts : t :: ts = us at h
  intro hk
  cases h with
  | mk hd hc =>
    cases hd with
    | none =>
      obtain ⟨t', us', rfl, hstart⟩ := hc.head
      obtain ⟨rfl, _⟩ := List.cons.inj hts
      rw [hk] at hstart
      cases hstart
    | declare hv | assign hv | declareTwo _ hv | assignTwo _ hv =>
      obtain ⟨rfl, _⟩ := List.cons.inj hts
      cases hk.symm.trans hv

theorem IsPipeline.ne_nil {context : Context} {pipe : Pipeline Operand}
    (h : IsPipeline context d Γ ts pipe Δ) : ts ≠ [] := by
  cases h with
  | mk _ hc =>
    obtain ⟨t, us, rfl, _⟩ := hc.head
    simp

theorem IsTail.ne_nil {kind : BranchKind} {d : Nat} {loop : Bool} {Γ : Scope}
    {us : List Token} {alternative : Option (NodeList Node)}
    (h : IsTail kind d loop Γ us alternative) : us ≠ [] := by
  cases h with
  | plain he => cases he; nofun
  | divided hl => cases hl; nofun
  | chained => nofun

/-! ## Pipelines hold inner tokens only -/

theorem IsAtom.isInner {t : Token} {a : Operand} (h : IsAtom Γ t a) : t.kind.isInner = true := by
  cases h <;> rfl

theorem IsFields.isInner {fs : List Token} {names : List String} (h : IsFields fs names) :
    ∀ t ∈ fs, t.kind.isInner = true := by
  induction h with
  | nil => exact nofun
  | cons _ ih => exact List.forall_mem_cons.mpr ⟨rfl, ih⟩

theorem IsDeclared.isInner {context : Context} {ds : List Token} {assigns : Bool}
    {declared : List DeclaredVariable} (h : IsDeclared context Γ ds assigns declared Δ) :
    ∀ t ∈ ds, t.kind.isInner = true := by
  cases h <;> simp_all [TokenKind.isInner]

mutual

theorem IsTerm.isInner : ∀ {d : Nat} {Γ Δ : Scope} {ts : List Token} {a : Operand},
    IsTerm d Γ ts a Δ → ∀ t ∈ ts, t.kind.isInner = true
  | _, _, _, _, _, .atom h => List.forall_mem_cons.mpr ⟨h.isInner, nofun⟩
  | _, _, _, _, _, .group _ ho hp hc => by
    have hinner := hp.isInner
    simp only [List.mem_cons, List.mem_append, List.not_mem_nil, or_false]
    rintro t (rfl | ht | rfl)
    · rw [ho]; rfl
    · exact hinner t ht
    · rw [hc]; rfl

theorem IsOperand.isInner : ∀ {d : Nat} {Γ Δ : Scope} {ts : List Token} {a : Operand},
    IsOperand d Γ ts a Δ → ∀ t ∈ ts, t.kind.isInner = true
  | _, _, _, _, _, .mk ht hf _ => List.forall_mem_append.mpr ⟨ht.isInner, hf.isInner⟩

theorem IsCommand.isInner : ∀ {d : Nat} {Γ Δ : Scope} {ts : List Token} {args : List Operand},
    IsCommand d Γ ts args Δ → ∀ t ∈ ts, t.kind.isInner = true
  | _, _, _, _, _, .one h => h.isInner
  | _, _, _, _, _, .cons h _ hrest => List.forall_mem_append.mpr ⟨h.isInner, hrest.isInner⟩

theorem IsCommands.isInner : ∀ {d : Nat} {Γ Δ : Scope} {ts : List Token}
    {commands : List (Command Operand)}, IsCommands d Γ ts commands Δ →
    ∀ t ∈ ts, t.kind.isInner = true
  | _, _, _, _, _, .one h _ => h.isInner
  | _, _, _, _, _, .cons h _ hbar hrest =>
    List.forall_mem_append.mpr
      ⟨h.isInner, List.forall_mem_cons.mpr ⟨by rw [hbar]; rfl, hrest.isInner⟩⟩

theorem IsPipeline.isInner : ∀ {context : Context} {d : Nat} {Γ Δ : Scope} {ts : List Token}
    {pipe : Pipeline Operand}, IsPipeline context d Γ ts pipe Δ →
    ∀ t ∈ ts, t.kind.isInner = true
  | _, _, _, _, _, _, .mk hd hc _ => List.forall_mem_append.mpr ⟨hd.isInner, hc.isInner⟩

end

end Grammar

end Fieldwise
