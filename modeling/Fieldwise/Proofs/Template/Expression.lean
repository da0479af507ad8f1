import Fieldwise.Proofs.Outcome
import Fieldwise.Proofs.Template.Grammar

/-!
# Pipelines are read as the grammar says

* `readDeclared_sound`, `readDeclared_complete` : the same for declarations alone.
* `pipelineFrom_sound` : what is read is derived by the grammar, and reading ends at the token that
  ends the pipeline.
* `pipelineFrom_complete` : what the grammar derives is read, with fuel for four calls a token.
* `readPipeline_eq_ok_iff` : both, for a pipeline that fills an action up to its right delimiter.

Behind the tokens at hand stands the right delimiter `close`, so that there is always a next
token.
-/

set_option autoImplicit false

namespace Fieldwise

open Grammar

variable {close : Token}

namespace Cursor

@[simp] theorem peek_cons (close t : Token) (ts : List Token) (Γ : Scope) :
    (⟨t :: ts, Γ⟩ : Cursor).peek close = t := rfl

@[simp] theorem next_cons (t : Token) (ts : List Token) (Γ : Scope) :
    (⟨t :: ts, Γ⟩ : Cursor).next = ⟨ts, Γ⟩ := rfl

@[simp] theorem scope_next (c : Cursor) : c.next.scope = c.scope := rfl

/-- A next token that is not the right delimiter is the first of those at hand. -/
theorem tokens_eq_cons {c : Cursor} (h : (c.peek close).kind ≠ close.kind) :
    c.tokens = c.peek close :: c.next.tokens := by
  obtain ⟨_ | ⟨t, rest⟩, Γ⟩ := c
  · exact absurd rfl h
  · rfl

theorem checkVariable_eq_ok_iff {c : Cursor} {name : String} {pos : Pos} :
    c.checkVariable name pos = .ok () ↔ name ∈ c.scope := by
  unfold checkVariable
  split
  · next h => simpa using h
  · next h => simpa using h

end Cursor

/-! ## Declarations -/

/-- Declaring never fails, and the latest variable comes first. -/
theorem bindVariables_false (declared : List DeclaredVariable) (c : Cursor) :
    bindVariables false declared c =
      .ok { c with scope := (declared.map DeclaredVariable.name).reverse ++ c.scope } := by
  induction declared generalizing c with
  | nil => rfl
  | cons v vs ih => simp [bindVariables, ih]

/-- Assigning asks for variables in scope and changes nothing. -/
theorem bindVariables_true {declared : List DeclaredVariable} {c c' : Cursor} :
    bindVariables true declared c = .ok c' ↔ c' = c ∧ ∀ v ∈ declared, v.name ∈ c.scope := by
  induction declared with
  | nil => simp [bindVariables, eq_comm]
  | cons v vs ih =>
    rw [bindVariables, if_pos rfl, List.forall_mem_cons]
    split
    · next e he =>
      simp only [reduceCtorEq, false_iff]
      rintro ⟨_, hv, _⟩
      cases he.symm.trans (Cursor.checkVariable_eq_ok_iff.mpr hv)
    · next hv => simp [ih, Cursor.checkVariable_eq_ok_iff.mp hv]

/-- Behind a variable and a comma stand a second variable and a mark, which takes a range. -/
theorem readDeclared_comma (close : Token) (context : Context) (x : String) (p q : Pos)
    (s t : Bool) (w mark : Token) (rest : List Token) (Γ : Scope) :
    readDeclared close context ⟨⟨.var x, p, s⟩ :: ⟨.comma, q, t⟩ :: w :: mark :: rest, Γ⟩ =
      match w.kind with
      | .var y =>
        if mark.kind = .declare || mark.kind = .assign then
          if context = .opening .range then
            (bindVariables (mark.kind = .assign) [⟨p, x⟩, ⟨w.pos, y⟩] ⟨rest, Γ⟩).map
              (decide (mark.kind = .assign), [⟨p, x⟩, ⟨w.pos, y⟩], ·)
          else .error ⟨p, .tooManyVariables context⟩
        else .error ⟨mark.pos, .unexpectedToken mark.kind context⟩
      | _ => .error ⟨w.pos, .unexpectedToken w.kind context⟩ := rfl

theorem isDeclared_of_comma {context : Context} {x : String} {p q : Pos} {s t : Bool}
    {w mark : Token} {rest : List Token} {Γ : Scope} {assigns : Bool}
    {declared : List DeclaredVariable} {inner : Cursor}
    (h : readDeclared close context ⟨⟨.var x, p, s⟩ :: ⟨.comma, q, t⟩ :: w :: mark :: rest, Γ⟩ =
      .ok (assigns, declared, inner)) :
    rest = inner.tokens ∧ IsDeclared context Γ [⟨.var x, p, s⟩, ⟨.comma, q, t⟩, w, mark] assigns
      declared inner.scope := by
  rw [readDeclared_comma] at h
  split at h
  · next y hw =>
    split at h
    · next hmark =>
      split at h
      · next hrange =>
        obtain ⟨c', hbind, heq⟩ := map_eq_ok_iff.mp h
        by_cases hassign : mark.kind = .assign
        · rw [decide_eq_true hassign] at hbind heq
          obtain ⟨rfl, hall⟩ := bindVariables_true.mp hbind
          cases heq
          obtain ⟨hx, hy⟩ : x ∈ Γ ∧ y ∈ Γ := by simpa using hall
          exact ⟨rfl, .assignTwo hrange rfl rfl hw hassign hx hy⟩
        · rw [decide_eq_false hassign] at hbind heq
          rw [bindVariables_false] at hbind
          cases hbind
          cases heq
          exact ⟨rfl, .declareTwo hrange rfl rfl hw (by simpa [hassign] using hmark)⟩
      · cases h
    · cases h
  · cases h

theorem readDeclared_sound {context : Context} {c inner : Cursor} {assigns : Bool}
    {declared : List DeclaredVariable} (hclose : close.kind = .rightDelim)
    (h : readDeclared close context c = .ok (assigns, declared, inner)) :
    ∃ ds, c.tokens = ds ++ inner.tokens ∧
      IsDeclared context c.scope ds assigns declared inner.scope := by
  obtain ⟨ts, Γ⟩ := c
  have hread := h
  unfold readDeclared at h
  dsimp only at h
  split at h
  · rw [bindVariables_false] at h
    cases h
    exact ⟨[_, _], rfl, .declare rfl rfl⟩
  · obtain ⟨c', hbind, heq⟩ := map_eq_ok_iff.mp h
    obtain ⟨rfl, hall⟩ := bindVariables_true.mp hbind
    cases heq
    exact ⟨[_, _], rfl, .assign rfl rfl (hall _ List.mem_cons_self)⟩
  · clear h
    next x p s q t rest =>
    -- The right delimiter is neither a variable nor a mark, so two more tokens are at hand.
    rcases rest with _ | ⟨w, _ | ⟨mark, rest⟩⟩
    · simp [readDeclared, Cursor.peek, hclose, Cursor.unexpected] at hread
    · simp only [readDeclared, Cursor.peek, List.headD_cons] at hread
      split at hread
      · simp [Cursor.next, hclose, Cursor.unexpected] at hread
      · cases hread
    · obtain ⟨rfl, hdeclared⟩ := isDeclared_of_comma hread
      exact ⟨[_, _, _, _], rfl, hdeclared⟩
  · cases h
    exact ⟨[], rfl, .none⟩

/-- Where no mark follows a first variable, nothing is declared. -/
theorem readDeclared_none {context : Context} {t : Token} {ts : List Token} {Γ : Scope}
    (h : ∀ x, t.kind = .var x → NoMark ts) :
    readDeclared close context ⟨t :: ts, Γ⟩ = .ok (false, [], ⟨t :: ts, Γ⟩) := by
  have hmark : ∀ {x p s m rest}, t :: ts = ⟨.var x, p, s⟩ :: m :: rest → isMark m.kind = false := by
    rintro x p s m rest heq
    obtain ⟨rfl, rfl⟩ := List.cons.inj heq
    exact h x rfl m rfl
  unfold readDeclared
  dsimp only
  split
  · next heq => cases hmark heq
  · next heq => cases hmark heq
  · next heq => cases hmark heq
  · rfl

/-- Declarations are read if commands follow them. -/
theorem readDeclared_complete {context : Context} {Γ Δ Θ : Scope} {ds ts rest : List Token}
    {d : Nat} {assigns : Bool} {declared : List DeclaredVariable}
    {commands : List (Command Operand)} (h : IsDeclared context Γ ds assigns declared Δ)
    (hc : IsCommands d Δ ts commands Θ) (hrest : NoMark rest) :
    readDeclared close context ⟨ds ++ (ts ++ rest), Γ⟩ =
      .ok (assigns, declared, ⟨ts ++ rest, Δ⟩) := by
  cases h with
  | none =>
    obtain ⟨t, us, rfl, _⟩ := hc.head
    exact readDeclared_none fun x hx => hc.noMark hx hrest
  | @declare x v mark hv hm =>
    obtain ⟨_, p, s⟩ := v
    obtain ⟨_, q, t⟩ := mark
    cases hv
    cases hm
    rfl
  | @assign x v mark hv hm hx =>
    obtain ⟨_, p, s⟩ := v
    obtain ⟨_, q, t⟩ := mark
    cases hv
    cases hm
    exact map_eq_ok_iff.mpr ⟨_, bindVariables_true.mpr ⟨rfl, by simpa using hx⟩, rfl⟩
  | @declareTwo x y v comma w mark hrange hv hcomma hw hm =>
    obtain ⟨_, p, s⟩ := v
    obtain ⟨_, q, t⟩ := comma
    cases hv
    cases hcomma
    simp only [List.cons_append, List.nil_append]
    rw [readDeclared_comma]
    simp [hw, hm, hrange, bindVariables_false, Except.map]
  | @assignTwo x y v comma w mark hrange hv hcomma hw hm hx hy =>
    obtain ⟨_, p, s⟩ := v
    obtain ⟨_, q, t⟩ := comma
    cases hv
    cases hcomma
    simp only [List.cons_append, List.nil_append]
    rw [readDeclared_comma]
    simp only [hw, hm, hrange]
    exact map_eq_ok_iff.mpr ⟨_, bindVariables_true.mpr ⟨rfl, by simp [hx, hy]⟩, rfl⟩

/-! ## Operands -/

theorem takeFields_sound (ts : List Token) :
    ∃ fs, ts = fs ++ (takeFields ts).2 ∧ IsFields fs (takeFields ts).1 := by
  fun_induction takeFields ts with
  | case1 name pos rest => exact ⟨[], rfl, .nil⟩
  | case2 name pos space rest hspace ih =>
    obtain ⟨fs, hts, hfs⟩ := ih
    cases Bool.eq_false_iff.mpr hspace
    exact ⟨_ :: fs, congrArg _ hts, .cons hfs⟩
  | case3 rest => exact ⟨[], rfl, .nil⟩

/-- No token follows that would be one more field of the operand before. -/
def NoField (ts : List Token) : Prop :=
  ∀ t ∈ ts.head?, ∀ name, t.kind = .field name → t.spaceBefore = true

theorem takeFields_complete {fs rest : List Token} {names : List String} (h : IsFields fs names)
    (hrest : NoField rest) : takeFields (fs ++ rest) = (names, rest) := by
  induction h with
  | nil =>
    rw [List.nil_append]
    fun_cases takeFields rest with
    | case1 => rfl
    | case2 name pos space rest hspace => exact absurd (hrest _ rfl name rfl) hspace
    | case3 => rfl
  | cons _ ih => simp [takeFields, ih]

theorem attachFields_eq_ok_iff {term a : Operand} {fields : List String}
    (h : ∀ base names, term ≠ .chain base names) :
    attachFields term fields = .ok a ↔ Attached term fields a := by
  constructor
  · intro heq
    unfold attachFields at heq
    split at heq
    · next hempty =>
      cases heq
      rw [List.isEmpty_iff.mp hempty]
      exact .bare term
    · next hne =>
      have hne : fields ≠ [] := fun hnil => hne (List.isEmpty_iff.mpr hnil)
      cases term with
      | field => cases heq; exact .field hne
      | var => cases heq; exact .var hne
      | identifier => cases heq; exact .identifier hne
      | group => cases heq; exact .group hne
      | chain base names => exact absurd rfl (h base names)
      | dot | bool | nil | string | number => cases heq
  · intro ha
    cases ha <;> simp_all [attachFields]

theorem operand?_eq_ok_iff {t : Token} {c : Cursor} {a : Operand} :
    t.operand? c = .ok (some a) ↔ IsAtom c.scope t a := by
  obtain ⟨kind, pos, space⟩ := t
  constructor
  · intro h
    cases kind with
    | identifier name =>
      simp only [Token.operand?] at h
      split at h
      · next hname => cases h; exact .identifier hname
      · cases h
    | var name =>
      obtain ⟨_, hvar, heq⟩ := map_eq_ok_iff.mp h
      cases heq
      exact .var (Cursor.checkVariable_eq_ok_iff.mp hvar)
    | dot => cases h; exact .dot
    | nil => cases h; exact .nil
    | bool => cases h; exact .bool
    | field => cases h; exact .field
    | string => cases h; exact .string
    | number => cases h; exact .number
    | _ => cases h
  · intro h
    cases h with
    | identifier hname => simp [Token.operand?, hname]
    | var hvar => exact map_eq_ok_iff.mpr ⟨(), Cursor.checkVariable_eq_ok_iff.mpr hvar, rfl⟩
    | _ => rfl

/-! ## Pipelines -/

theorem startsAt_peek {c : Cursor} {t : Token} {ts rest : List Token}
    (h : c.tokens = t :: ts ++ rest) : StartsAt (t :: ts) (c.peek close).pos := by
  rw [Cursor.peek, h]
  rfl

/-- What may follow a command: the token that ends the pipeline, or a bar. -/
def EndsCommand (ending : Ending) (t : Token) : Prop :=
  t.kind = ending.kind ∨ t.kind = .pipe

theorem endsCommand_iff {ending : Ending} {t : Token} :
    (decide (t.kind = ending.kind) || decide (t.kind = .pipe)) = true ↔ EndsCommand ending t := by
  simp [EndsCommand]

mutual

/-- What is read as a pipeline is one, and the token that ends it follows. -/
theorem pipelineFrom_sound {ending : Ending} {context : Context} {d : Nat}
    (hclose : close.kind = .rightDelim) :
    ∀ (fuel : Nat) {c rest : Cursor} {pipe : Pipeline Operand},
      pipelineFrom close ending context d fuel c = .ok (pipe, rest) →
      ∃ (ts : List Token) (c' : Cursor), c.tokens = ts ++ c'.tokens ∧ c'.next = rest ∧
        (c'.peek close).kind = ending.kind ∧ IsPipeline context d c.scope ts pipe c'.scope
  | 0, _, _, _, h => by cases h
  | fuel + 1, c, rest, pipe, h => by
    rw [pipelineFrom] at h
    split at h
    · cases h
    next assigns declared inner hdeclared =>
    split at h
    · cases h
    split at h
    · cases h
    next commands rest' hcommands =>
    cases h
    obtain ⟨ds, hds, hd⟩ := readDeclared_sound hclose hdeclared
    obtain ⟨ts, c', hts, hnext, hend, hc⟩ := commandsFrom_sound hclose fuel hcommands
    have htokens : c.tokens = (ds ++ ts) ++ c'.tokens := by rw [hds, hts, List.append_assoc]
    refine ⟨ds ++ ts, c', htokens, hnext, hend, .mk hd hc ?_⟩
    obtain ⟨t, us, rfl, _⟩ := hc.head
    cases ds with
    | nil => exact startsAt_peek htokens
    | cons => exact startsAt_peek htokens
termination_by structural fuel => fuel

theorem commandsFrom_sound {ending : Ending} {d : Nat} (hclose : close.kind = .rightDelim) :
    ∀ (fuel : Nat) {c rest : Cursor} {commands : List (Command Operand)},
      commandsFrom close ending d fuel c = .ok (commands, rest) →
      ∃ (ts : List Token) (c' : Cursor), c.tokens = ts ++ c'.tokens ∧ c'.next = rest ∧
        (c'.peek close).kind = ending.kind ∧ IsCommands d c.scope ts commands c'.scope
  | 0, _, _, _, h => by cases h
  | fuel + 1, c, rest, commands, h => by
    rw [commandsFrom] at h
    split at h
    · cases h
    next args after hargs =>
    obtain ⟨ts, hts, hend, hcommand⟩ := operandsFrom_sound hclose fuel hargs
    have hpos : StartsAt ts (c.peek close).pos := by
      obtain ⟨t, us, rfl, _⟩ := hcommand.head
      exact startsAt_peek hts
    split at h
    · next hbar =>
      split at h
      · cases h
      next more rest' hmore =>
      cases h
      obtain ⟨us, c', hus, hnext, hend', hcommands⟩ := commandsFrom_sound hclose fuel hmore
      have htail := after.tokens_eq_cons (by rw [hbar, hclose]; nofun)
      exact ⟨ts ++ after.peek close :: us, c', by rw [hts, htail, hus, List.append_assoc]; rfl,
        hnext, hend', .cons hcommand hpos hbar hcommands⟩
    · next hbar =>
      cases h
      exact ⟨ts, after, hts, rfl, hend.resolve_right hbar, .one hcommand hpos⟩
termination_by structural fuel => fuel

theorem operandsFrom_sound {ending : Ending} {d : Nat} (hclose : close.kind = .rightDelim) :
    ∀ (fuel : Nat) {c rest : Cursor} {args : List Operand},
      operandsFrom close ending d fuel c = .ok (args, rest) →
      ∃ ts, c.tokens = ts ++ rest.tokens ∧ EndsCommand ending (rest.peek close) ∧
        IsCommand d c.scope ts args rest.scope
  | 0, _, _, _, h => by cases h
  | fuel + 1, c, rest, args, h => by
    rw [operandsFrom] at h
    split at h
    · cases h
    · cases h
    next term after hterm =>
    split at h
    · cases h
    next operand hattach =>
    obtain ⟨ts, hts, ht⟩ := termFrom_sound hclose fuel hterm
    obtain ⟨fs, hfs, hfields⟩ := takeFields_sound after.tokens
    have hoperand : IsOperand d c.scope (ts ++ fs) operand after.scope :=
      .mk ht hfields ((attachFields_eq_ok_iff ht.ne_chain).mp hattach)
    have htokens : c.tokens = (ts ++ fs) ++ (takeFields after.tokens).2 := by
      rw [hts, List.append_assoc, ← hfs]
    dsimp only at h
    split at h
    · next hend =>
      cases h
      exact ⟨ts ++ fs, htokens, endsCommand_iff.mp hend, .one hoperand⟩
    · split at h
      · next hspace =>
        split at h
        · cases h
        next more rest' hmore =>
        cases h
        obtain ⟨us, hus, hend, hcommand⟩ := operandsFrom_sound hclose fuel hmore
        obtain ⟨t, us, rfl, _⟩ := hcommand.head
        refine ⟨ts ++ fs ++ t :: us, ?_, hend, .cons hoperand ?_ hcommand⟩
        · rw [htokens, List.append_assoc (ts ++ fs)]
          exact congrArg (ts ++ fs ++ ·) hus
        · rw [Cursor.peek, hus] at hspace
          exact hspace
      · cases h
termination_by structural fuel => fuel

theorem termFrom_sound {d : Nat} (hclose : close.kind = .rightDelim) :
    ∀ (fuel : Nat) {c rest : Cursor} {term : Operand},
      termFrom close d fuel c = .ok (some term, rest) →
      ∃ ts, c.tokens = ts ++ rest.tokens ∧ IsTerm d c.scope ts term rest.scope
  | 0, _, _, _, h => by cases h
  | fuel + 1, c, rest, term, h => by
    rw [termFrom] at h
    split at h
    · next hparen =>
      split at h
      · next hd =>
        split at h
        · cases h
        next pipe rest' hp =>
        cases h
        obtain ⟨ts, c', hts, hnext, hend, hpipe⟩ := pipelineFrom_sound hclose fuel hp
        have hc := c.tokens_eq_cons (by rw [hparen, hclose]; nofun)
        have hc' := c'.tokens_eq_cons (by rw [hend, hclose]; nofun)
        subst hnext
        refine ⟨c.peek close :: (ts ++ [c'.peek close]), ?_, .group hd hparen hpipe hend⟩
        rw [hc, hts, hc']
        simp
      · cases h
    · split at h
      · cases h
      · cases h
      next operand hatom =>
      cases h
      have hatom := operand?_eq_ok_iff.mp hatom
      have hne : (c.peek close).kind ≠ close.kind := by
        intro hdelim
        have hstart := hatom.startsOperand
        rw [hdelim, hclose] at hstart
        cases hstart
      exact ⟨[c.peek close], Cursor.tokens_eq_cons hne, .atom hatom⟩
termination_by structural fuel => fuel

end

/-! ### All that the grammar derives is read -/

theorem pos_peek {Γ : Scope} {ts rest : List Token} {pos : Pos} (h : StartsAt ts pos) :
    ((⟨ts ++ rest, Γ⟩ : Cursor).peek close).pos = pos := by
  cases ts with
  | nil => cases h
  | cons t us => exact Option.some.inj h

/-- What an operand can begin with ends no command. -/
theorem not_endsCommand_of_startsOperand {ending : Ending} {t : Token}
    (h : startsOperand t.kind = true) : ¬ EndsCommand ending t := by
  rintro (hk | hk)
  · rw [hk] at h
    cases ending <;> cases h
  · rw [hk] at h
    cases h

theorem noField_of_endsCommand {ending : Ending} {Γ : Scope} {rest : List Token}
    (h : EndsCommand ending ((⟨rest, Γ⟩ : Cursor).peek close)) : NoField rest := by
  intro t ht name hname
  obtain ⟨us, rfl⟩ : ∃ us, rest = t :: us := List.head?_eq_some_iff.mp ht
  rcases h with hk | hk
  · cases ending <;> cases hname.symm.trans hk
  · cases hname.symm.trans hk

theorem noMark_of_peek {ending : Ending} {Γ : Scope} {rest : List Token}
    (h : ((⟨rest, Γ⟩ : Cursor).peek close).kind = ending.kind) : NoMark rest := by
  intro t ht
  obtain ⟨us, rfl⟩ : ∃ us, rest = t :: us := List.head?_eq_some_iff.mp ht
  rw [Cursor.peek_cons] at h
  rw [h]
  cases ending <;> rfl

mutual

theorem termFrom_complete : ∀ {d : Nat} {Γ Δ : Scope} {ts : List Token} {term : Operand},
    IsTerm d Γ ts term Δ → ∀ (rest : List Token) (fuel : Nat), 4 * ts.length + 1 ≤ fuel →
    termFrom close d fuel ⟨ts ++ rest, Γ⟩ = .ok (some term, ⟨rest, Δ⟩)
  | _, Γ, _, _, _, @IsTerm.atom _ _ t _ h, rest, fuel, hfuel => by
    obtain _ | fuel := fuel
    · omega
    have hparen : t.kind ≠ .leftParen := by
      intro hparen
      cases h <;> cases hparen
    have hread : t.operand? ⟨t :: rest, Γ⟩ = .ok (some _) := operand?_eq_ok_iff.mpr h
    rw [termFrom]
    simp [hparen, hread]
  | _, _, _, _, _, @IsTerm.group _ _ Δ opening closing ts pipe hd ho hp hc, rest, fuel, hfuel => by
    obtain _ | fuel := fuel
    · omega
    simp only [List.length_cons, List.length_append, List.length_nil] at hfuel
    have hend : ((⟨closing :: rest, Δ⟩ : Cursor).peek close).kind = Ending.parenthesis.kind := hc
    have hread := pipelineFrom_complete hp (closing :: rest) fuel (by omega) hend
    rw [termFrom]
    simp [ho, hd, hread]

theorem operandsFrom_complete {ending : Ending} : ∀ {d : Nat} {Γ Δ : Scope} {ts : List Token}
    {args : List Operand}, IsCommand d Γ ts args Δ → ∀ (rest : List Token) (fuel : Nat),
    4 * ts.length + 2 ≤ fuel → EndsCommand ending ((⟨rest, Δ⟩ : Cursor).peek close) →
    operandsFrom close ending d fuel ⟨ts ++ rest, Γ⟩ = .ok (args, ⟨rest, Δ⟩)
  | _, _, _, _, _, .one (@IsOperand.mk _ _ _ ts fs _ _ _ ht hf ha), rest, fuel, hfuel, hend => by
    obtain _ | fuel := fuel
    · omega
    rw [List.length_append] at hfuel
    have hterm := termFrom_complete ht (fs ++ rest) fuel (by omega)
    have hfields := takeFields_complete hf (noField_of_endsCommand hend)
    have hattach := (attachFields_eq_ok_iff ht.ne_chain).mpr ha
    rw [operandsFrom, List.append_assoc, hterm]
    simp only [hfields, hattach]
    rw [if_pos (endsCommand_iff.mpr hend)]
  | _, _, _, _, _, @IsCommand.cons _ _ Δ _ t _ us _ _
      (@IsOperand.mk _ _ _ ts fs _ _ fields ht hf ha) hspace hmore, rest, fuel, hfuel, hend => by
    obtain _ | fuel := fuel
    · omega
    simp only [List.length_append, List.length_cons] at hfuel
    obtain ⟨_, _, heq, hstart⟩ := hmore.head
    obtain ⟨rfl, rfl⟩ := List.cons.inj heq
    have hpos : 0 < ts.length := by
      obtain ⟨_, _, rfl, _⟩ := ht.head
      exact Nat.succ_pos _
    have hterm := termFrom_complete ht (fs ++ (t :: us ++ rest)) fuel (by omega)
    have hfields : takeFields (fs ++ (t :: us ++ rest)) = (fields, t :: us ++ rest) :=
      takeFields_complete hf fun t' ht' _ _ => by cases ht'; exact hspace
    have hattach := (attachFields_eq_ok_iff ht.ne_chain).mpr ha
    have hread := operandsFrom_complete hmore rest fuel (by rw [List.length_cons]; omega) hend
    have hmiddle : ¬ EndsCommand ending ((⟨t :: us ++ rest, Δ⟩ : Cursor).peek close) :=
      not_endsCommand_of_startsOperand hstart
    rw [operandsFrom, List.append_assoc, List.append_assoc, hterm]
    simp only [hfields, hattach]
    rw [if_neg fun hor => hmiddle (endsCommand_iff.mp hor),
      if_pos (show ((⟨t :: us ++ rest, Δ⟩ : Cursor).peek close).spaceBefore = true from hspace),
      hread]

theorem commandsFrom_complete {ending : Ending} : ∀ {d : Nat} {Γ Δ : Scope} {ts : List Token}
    {commands : List (Command Operand)}, IsCommands d Γ ts commands Δ →
    ∀ (rest : List Token) (fuel : Nat), 4 * ts.length + 3 ≤ fuel →
    ((⟨rest, Δ⟩ : Cursor).peek close).kind = ending.kind →
    commandsFrom close ending d fuel ⟨ts ++ rest, Γ⟩ = .ok (commands, (⟨rest, Δ⟩ : Cursor).next)
  | _, _, Δ, _, _, .one h hpos, rest, fuel, hfuel, hend => by
    obtain _ | fuel := fuel
    · omega
    have hread := operandsFrom_complete h rest fuel (by omega) (.inl hend)
    have hbar : ((⟨rest, Δ⟩ : Cursor).peek close).kind ≠ .pipe := by
      rw [hend]
      cases ending <;> nofun
    rw [commandsFrom, hread]
    simp only [hbar, if_false, pos_peek hpos]
  | _, _, _, _, _, @IsCommands.cons _ _ Δ _ bar ts us _ _ _ h hpos hbar hmore, rest, fuel, hfuel,
      hend => by
    obtain _ | fuel := fuel
    · omega
    simp only [List.length_append, List.length_cons] at hfuel
    have hstop : EndsCommand ending ((⟨bar :: us ++ rest, Δ⟩ : Cursor).peek close) := .inr hbar
    have hread := operandsFrom_complete h (bar :: us ++ rest) fuel (by omega) hstop
    have hcommands := commandsFrom_complete hmore rest fuel (by omega) hend
    rw [commandsFrom, List.append_assoc, hread]
    simp [hbar, hcommands, pos_peek hpos]

theorem pipelineFrom_complete {ending : Ending} : ∀ {context : Context} {d : Nat} {Γ Δ : Scope}
    {ts : List Token} {pipe : Pipeline Operand}, IsPipeline context d Γ ts pipe Δ →
    ∀ (rest : List Token) (fuel : Nat), 4 * ts.length + 4 ≤ fuel →
    ((⟨rest, Δ⟩ : Cursor).peek close).kind = ending.kind →
    pipelineFrom close ending context d fuel ⟨ts ++ rest, Γ⟩ =
      .ok (pipe, (⟨rest, Δ⟩ : Cursor).next)
  | context, _, Γ, _, _, _, @IsPipeline.mk _ _ _ Δ _ ds ts _ assigns declared _ hd hc hpos, rest,
      fuel, hfuel, hend => by
    obtain _ | fuel := fuel
    · omega
    rw [List.length_append] at hfuel
    have hdeclared : readDeclared close context ⟨ds ++ (ts ++ rest), Γ⟩ =
        .ok (assigns, declared, ⟨ts ++ rest, Δ⟩) :=
      readDeclared_complete hd hc (noMark_of_peek hend)
    have hread := commandsFrom_complete hc rest fuel (by omega) hend
    have hvalue : ((⟨ts ++ rest, Δ⟩ : Cursor).peek close).kind ≠ ending.kind := by
      obtain ⟨t, us, rfl, hstart⟩ := hc.head
      exact fun hk => not_endsCommand_of_startsOperand hstart (.inl hk)
    rw [pipelineFrom, List.append_assoc, hdeclared]
    simp only [hvalue, if_false, hread]
    rw [← List.append_assoc, pos_peek hpos]

end

/-- **Pipelines are read as the grammar says**: a pipeline that fills an action is read if and only
if the grammar derives it from the tokens of the action. -/
theorem readPipeline_eq_ok_iff {context : Context} {d : Nat} {Γ Δ : Scope} {ts : List Token}
    {pipe : Pipeline Operand} (hclose : close.kind = .rightDelim)
    (hinner : ∀ t ∈ ts, t.kind.isInner = true) :
    readPipeline close context d ⟨ts, Γ⟩ = .ok (pipe, Δ) ↔ IsPipeline context d Γ ts pipe Δ := by
  constructor
  · intro h
    obtain ⟨⟨pipe', rest⟩, hread, heq⟩ := map_eq_ok_iff.mp h
    cases heq
    obtain ⟨us, c', hts, hnext, hend, hpipe⟩ := pipelineFrom_sound hclose _ hread
    -- No inner token is a right delimiter, so nothing is left before the one that ends the action.
    have hnil : c'.tokens = [] := by
      cases hc : c'.tokens with
      | nil => rfl
      | cons t vs =>
        have ht := hinner t (by rw [show ts = us ++ c'.tokens from hts, hc]; simp)
        rw [Cursor.peek, hc, List.headD_cons] at hend
        rw [hend] at ht
        cases ht
    rw [hnil, List.append_nil] at hts
    cases hts
    subst hnext
    exact hpipe
  · intro h
    have hend : ((⟨[], Δ⟩ : Cursor).peek close).kind = Ending.delimiter.kind := hclose
    have hread := pipelineFrom_complete h [] (4 * ts.length + 4) (Nat.le_refl _) hend
    rw [List.append_nil] at hread
    exact map_eq_ok_iff.mpr ⟨_, hread, rfl⟩

end Fieldwise
