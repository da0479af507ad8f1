import Fieldwise.Proofs.Template.Expression
import Fieldwise.Proofs.Template.Layout

/-!
# What the reading of pipelines depends on

A pipeline is read from the kinds of its tokens and from the space before them. Places go into the
syntax and into refusals, and the space before a right delimiter goes nowhere.

* `verdict` : a result, with a refusal kept as its kind only.
* `Token.core`, `Cursor.core` : tokens as far as reading depends on them.
* `pipelineFrom_core` and the theorems with it : from the core of its tokens a phrase is read as
  its syntax without places, or is refused with the same verdict.
* `readPipeline_core` : the same for the pipeline of an action.

The two readings go in step, so the fuel that is enough for one is enough for the other. They part
at one point only, where an operand is followed by a right delimiter that ends no pipeline; there
both are refused (`operandsFrom_rightDelim`).
-/

set_option autoImplicit false

namespace Fieldwise

/-! ## Verdicts -/

/-- The result, with a refusal kept as its kind only. -/
def verdict {α : Type} (r : Except TemplateError α) : Except Bool α :=
  r.mapError fun e => e.fault.isUnsupported

section Verdict

variable {α β γ δ : Type} {f : α → β} {r : Except TemplateError β} {s : Except TemplateError α}

theorem verdict_error {d e : TemplateError} (h : d.fault.isUnsupported = e.fault.isUnsupported) :
    verdict (.error d : Except TemplateError α) = verdict (.error e) :=
  congrArg Except.error h

/-- Two results with one verdict are refusals of the same kind, or there is a value in both. -/
theorem verdict_cases (h : verdict r = verdict (s.map f)) :
    (∃ d e, r = .error d ∧ s = .error e ∧ d.fault.isUnsupported = e.fault.isUnsupported) ∨
      ∃ a, r = .ok (f a) ∧ s = .ok a := by
  cases r with
  | error d =>
    cases s with
    | error e => exact .inl ⟨d, e, rfl, rfl, Except.error.inj h⟩
    | ok a => cases h
  | ok b =>
    cases s with
    | error e => cases h
    | ok a =>
      cases h
      exact .inr ⟨a, rfl, rfl⟩

theorem verdict_map {g : α → γ} {k : β → δ} {l : γ → δ} (h : verdict r = verdict (s.map f))
    (hcomm : ∀ a, k (f a) = l (g a)) : verdict (r.map k) = verdict ((s.map g).map l) := by
  rcases verdict_cases h with ⟨d, e, rfl, rfl, hkind⟩ | ⟨a, rfl, rfl⟩
  · exact verdict_error hkind
  · exact congrArg Except.ok (hcomm a)

end Verdict

/-! ## Tokens and cursors -/

/-- What of a token reading depends on: its kind, and whether space stands before it. The space
before a right delimiter does not count. -/
def Token.core (t : Token) : Token :=
  ⟨t.kind, .start, t.spaceBefore && t.kind ≠ .rightDelim⟩

@[simp] theorem Token.kind_core (t : Token) : t.core.kind = t.kind := rfl

theorem Token.spaceBefore_core {t : Token} (h : t.kind ≠ .rightDelim) :
    t.core.spaceBefore = t.spaceBefore := by
  simp [Token.core, h]

/-- The cursor before the same tokens as far as reading depends on them. -/
def Cursor.core (c : Cursor) : Cursor :=
  ⟨c.tokens.map Token.core, c.scope⟩

open Grammar

variable {close : Token}

namespace Cursor

theorem core_mk (ts : List Token) (Γ : Scope) :
    (⟨ts.map Token.core, Γ⟩ : Cursor) = core ⟨ts, Γ⟩ := rfl

@[simp] theorem tokens_core (c : Cursor) : c.core.tokens = c.tokens.map Token.core := rfl

@[simp] theorem scope_core (c : Cursor) : c.core.scope = c.scope := rfl

@[simp] theorem next_core (c : Cursor) : c.core.next = c.next.core := by
  simp [core, next]

@[simp] theorem peek_core (close : Token) (c : Cursor) :
    c.core.peek close.core = (c.peek close).core := by
  obtain ⟨_ | ⟨t, ts⟩, Γ⟩ := c <;> rfl

theorem checkVariable_core (c : Cursor) (name : String) (pos pos' : Pos) :
    verdict (c.core.checkVariable name pos') = verdict ((c.checkVariable name pos).map id) := by
  unfold checkVariable
  rw [scope_core]
  split <;> rfl

end Cursor

/-! ## Declarations -/

theorem bindVariables_core (assigns : Bool) (declared : List DeclaredVariable) (c : Cursor) :
    verdict (bindVariables assigns (declared.map .bare) c.core) =
      verdict ((bindVariables assigns declared c).map Cursor.core) := by
  induction declared generalizing c with
  | nil => rfl
  | cons v vs ih =>
    obtain ⟨pos, name⟩ := v
    rw [List.map_cons, bindVariables, bindVariables]
    dsimp only [DeclaredVariable.bare]
    split
    · rcases verdict_cases (c.checkVariable_core name pos .start) with
        ⟨d, e, hd, he, hkind⟩ | ⟨_, hd, he⟩
      · rw [hd, he]
        exact verdict_error hkind
      · rw [hd, he]
        exact ih c
    · exact ih { c with scope := name :: c.scope }

/-- The declarations without their places, and the cursor behind them as far as reading depends on
it. -/
def coreDeclared : Bool × List DeclaredVariable × Cursor → Bool × List DeclaredVariable × Cursor
  | (assigns, declared, inner) => (assigns, declared.map .bare, inner.core)

theorem bound_core (assigns : Bool) (declared : List DeclaredVariable) (c : Cursor) :
    verdict ((bindVariables assigns (declared.map .bare) c.core).map
        (assigns, declared.map DeclaredVariable.bare, ·)) =
      verdict (((bindVariables assigns declared c).map (assigns, declared, ·)).map coreDeclared) :=
  verdict_map (bindVariables_core assigns declared c) fun _ => rfl

/-- Behind a variable and a comma: what the next two tokens decide. -/
theorem readDeclared_pair (close : Token) (context : Context) (x : String) (p q : Pos)
    (s t : Bool) (c : Cursor) :
    readDeclared close context ⟨⟨.var x, p, s⟩ :: ⟨.comma, q, t⟩ :: c.tokens, c.scope⟩ =
      match (c.peek close).kind with
      | .var y =>
        if (c.next.peek close).kind = .declare || (c.next.peek close).kind = .assign then
          if context = .opening .range then
            (bindVariables ((c.next.peek close).kind = .assign)
                [⟨p, x⟩, ⟨(c.peek close).pos, y⟩] c.next.next).map
              (decide ((c.next.peek close).kind = .assign),
                [⟨p, x⟩, ⟨(c.peek close).pos, y⟩], ·)
          else .error ⟨p, .tooManyVariables context⟩
        else c.next.unexpected close context
      | _ => c.unexpected close context := rfl

theorem readDeclared_pair_core (context : Context) (x : String) (p q : Pos) (s t : Bool)
    (c : Cursor) :
    verdict (readDeclared close.core context
        (Cursor.core ⟨⟨.var x, p, s⟩ :: ⟨.comma, q, t⟩ :: c.tokens, c.scope⟩)) =
      verdict ((readDeclared close context
        ⟨⟨.var x, p, s⟩ :: ⟨.comma, q, t⟩ :: c.tokens, c.scope⟩).map coreDeclared) := by
  have hcore : readDeclared close.core context
      (Cursor.core ⟨⟨.var x, p, s⟩ :: ⟨.comma, q, t⟩ :: c.tokens, c.scope⟩) = _ :=
    readDeclared_pair close.core context x .start .start _ _ c.core
  rw [hcore, readDeclared_pair]
  simp only [Cursor.peek_core, Cursor.next_core, Token.kind_core]
  cases (c.peek close).kind with
  | var y =>
    dsimp only
    split
    · split
      · exact bound_core _ [⟨p, x⟩, ⟨(c.peek close).pos, y⟩] c.next.next
      · rfl
    · rfl
  | _ => rfl

theorem readDeclared_core (context : Context) (c : Cursor) :
    verdict (readDeclared close.core context c.core) =
      verdict ((readDeclared close context c).map coreDeclared) := by
  obtain ⟨_ | ⟨⟨kind, p, s⟩, ts⟩, Γ⟩ := c
  · rfl
  cases kind with
  | var x =>
    rcases ts with _ | ⟨⟨mark, q, t⟩, rest⟩
    · rfl
    cases mark with
    | declare => exact bound_core false [⟨p, x⟩] ⟨rest, Γ⟩
    | assign => exact bound_core true [⟨p, x⟩] ⟨rest, Γ⟩
    | comma => exact readDeclared_pair_core context x p q s t ⟨rest, Γ⟩
    | _ => rfl
  | _ => rfl

/-! ## Operands -/

theorem takeFields_core (ts : List Token) :
    takeFields (ts.map Token.core) = ((takeFields ts).1, (takeFields ts).2.map Token.core) := by
  fun_induction takeFields ts with
  | case1 name pos rest => simp [Token.core, takeFields]
  | case2 name pos space rest hspace ih => simp [Token.core, takeFields, hspace, ih]
  | case3 ts h =>
    cases ts with
    | nil => rfl
    | cons t ts =>
      obtain ⟨kind, pos, space⟩ := t
      cases kind with
      | field name => exact absurd rfl (h name pos space ts)
      | _ => rfl

theorem attachFields_core (term : Operand) (fields : List String) :
    verdict (attachFields term.bare fields) =
      verdict ((attachFields term fields).map Operand.bare) := by
  unfold attachFields
  split
  · rfl
  · cases term <;> rfl

theorem operand?_core (t : Token) (c : Cursor) :
    verdict (t.core.operand? c.core) = verdict ((t.operand? c).map (Option.map Operand.bare)) := by
  obtain ⟨kind, pos, space⟩ := t
  cases kind with
  | identifier name =>
    simp only [Token.core, Token.operand?]
    split <;> rfl
  | var name =>
    exact verdict_map (g := fun _ => some (Operand.var pos name []))
      (c.checkVariable_core name pos .start) fun _ => rfl
  | _ => rfl

/-- No operand begins with a right delimiter. -/
theorem operandsFrom_rightDelim (ending : Ending) (depth : Nat) {c : Cursor}
    (h : (c.peek close).kind = .rightDelim) (fuel : Nat) :
    ∃ e, operandsFrom close ending depth fuel c = .error e ∧ e.fault.isUnsupported = false := by
  match fuel with
  | 0 => exact ⟨_, rfl, rfl⟩
  | 1 => exact ⟨_, rfl, rfl⟩
  | fuel + 2 =>
    have hterm : termFrom close depth (fuel + 1) c = .ok (none, c) := by
      simp [termFrom, Token.operand?, h]
    rw [operandsFrom, hterm]
    exact ⟨_, rfl, rfl⟩

/-! ## Pipelines -/

mutual

theorem pipelineFrom_core {ending : Ending} : ∀ (fuel : Nat) (context : Context) (depth : Nat)
    (c : Cursor), verdict (pipelineFrom close.core ending context depth fuel c.core) =
      verdict ((pipelineFrom close ending context depth fuel c).map
        fun (pipe, rest) => (barePipeline pipe, rest.core))
  | 0, _, _, _ => rfl
  | fuel + 1, context, depth, c => by
    rw [pipelineFrom, pipelineFrom]
    rcases verdict_cases (readDeclared_core context c) with
      ⟨d, e, hd, he, hkind⟩ | ⟨⟨assigns, declared, inner⟩, hd, he⟩
    · rw [hd, he]
      exact verdict_error hkind
    rw [hd, he]
    simp only [coreDeclared, Cursor.peek_core, Token.kind_core]
    split
    · rfl
    rcases verdict_cases (commandsFrom_core fuel depth inner) with
      ⟨d, e, hd, he, hkind⟩ | ⟨⟨commands, rest⟩, hd, he⟩
    · rw [hd, he]
      exact verdict_error hkind
    · rw [hd, he]
      rfl
termination_by structural fuel => fuel

theorem commandsFrom_core {ending : Ending} : ∀ (fuel depth : Nat) (c : Cursor),
    verdict (commandsFrom close.core ending depth fuel c.core) =
      verdict ((commandsFrom close ending depth fuel c).map
        fun (commands, rest) => (bareCommands commands, rest.core))
  | 0, _, _ => rfl
  | fuel + 1, depth, c => by
    rw [commandsFrom, commandsFrom]
    rcases verdict_cases (operandsFrom_core fuel depth c) with
      ⟨d, e, hd, he, hkind⟩ | ⟨⟨args, rest⟩, hd, he⟩
    · rw [hd, he]
      exact verdict_error hkind
    rw [hd, he]
    simp only [Cursor.peek_core, Token.kind_core, Cursor.next_core]
    split
    · rcases verdict_cases (commandsFrom_core fuel depth rest.next) with
        ⟨d, e, hd, he, hkind⟩ | ⟨⟨commands, rest⟩, hd, he⟩
      · rw [hd, he]
        exact verdict_error hkind
      · rw [hd, he]
        rfl
    · rfl
termination_by structural fuel => fuel

theorem operandsFrom_core {ending : Ending} : ∀ (fuel depth : Nat) (c : Cursor),
    verdict (operandsFrom close.core ending depth fuel c.core) =
      verdict ((operandsFrom close ending depth fuel c).map
        fun (args, rest) => (bareOperands args, rest.core))
  | 0, _, _ => rfl
  | fuel + 1, depth, c => by
    rw [operandsFrom, operandsFrom]
    rcases verdict_cases (termFrom_core fuel depth c) with
      ⟨d, e, hd, he, hkind⟩ | ⟨⟨_ | term, rest⟩, hd, he⟩
    · rw [hd, he]
      exact verdict_error hkind
    · rw [hd, he]
      rfl
    rw [hd, he]
    simp only [Option.map_some, Cursor.tokens_core, Cursor.scope_core, takeFields_core]
    rcases verdict_cases (attachFields_core term (takeFields rest.tokens).1) with
      ⟨d, e, hd, he, hkind⟩ | ⟨operand, hd, he⟩
    · rw [hd, he]
      exact verdict_error hkind
    rw [hd, he]
    simp only [Cursor.core_mk, Cursor.peek_core, Token.kind_core]
    generalize (⟨(takeFields rest.tokens).2, rest.scope⟩ : Cursor) = after
    split
    · rfl
    by_cases hdelim : (after.peek close).kind = .rightDelim
    · -- the space may be read differently, but what follows it is refused in any case
      have hcore : (after.core.peek close.core).kind = .rightDelim := by rwa [Cursor.peek_core]
      obtain ⟨d, hd, hdkind⟩ := operandsFrom_rightDelim ending depth hcore fuel
      obtain ⟨e, he, hekind⟩ := operandsFrom_rightDelim ending depth hdelim fuel
      rw [hd, he]
      refine Eq.trans (b := .error false) ?_ ?_
      · split
        · exact congrArg Except.error hdkind
        · rfl
      · split
        · exact congrArg Except.error hekind.symm
        · rfl
    rw [Token.spaceBefore_core hdelim]
    split
    · rcases verdict_cases (operandsFrom_core fuel depth after) with
        ⟨d, e, hd, he, hkind⟩ | ⟨⟨operands, rest⟩, hd, he⟩
      · rw [hd, he]
        exact verdict_error hkind
      · rw [hd, he]
        rfl
    · rfl
termination_by structural fuel => fuel

theorem termFrom_core : ∀ (fuel depth : Nat) (c : Cursor),
    verdict (termFrom close.core depth fuel c.core) =
      verdict ((termFrom close depth fuel c).map
        fun (term, rest) => (term.map Operand.bare, rest.core))
  | 0, _, _ => rfl
  | fuel + 1, depth, c => by
    rw [termFrom, termFrom]
    simp only [Cursor.peek_core, Token.kind_core, Cursor.next_core]
    split
    · split
      · rcases verdict_cases (pipelineFrom_core fuel .parentheses (depth + 1) c.next) with
          ⟨d, e, hd, he, hkind⟩ | ⟨⟨pipe, rest⟩, hd, he⟩
        · rw [hd, he]
          exact verdict_error hkind
        · rw [hd, he]
          rfl
      · rfl
    · rcases verdict_cases (operand?_core (c.peek close) c) with
        ⟨d, e, hd, he, hkind⟩ | ⟨_ | operand, hd, he⟩
      · rw [hd, he]
        exact verdict_error hkind
      · rw [hd, he]
        rfl
      · rw [hd, he]
        rfl
termination_by structural fuel => fuel

end

/-- **A pipeline is read from the core of its tokens**: without places it is the same, and the
variables behind it are. -/
theorem readPipeline_core (context : Context) (depth : Nat) (ts : List Token) (Γ : Scope) :
    verdict (readPipeline close.core context depth ⟨ts.map Token.core, Γ⟩) =
      verdict ((readPipeline close context depth ⟨ts, Γ⟩).map
        fun (pipe, Δ) => (barePipeline pipe, Δ)) := by
  have hread : verdict (pipelineFrom close.core .delimiter context depth (4 * ts.length + 4)
      (Cursor.core ⟨ts, Γ⟩)) = _ := pipelineFrom_core _ context depth ⟨ts, Γ⟩
  unfold readPipeline
  rw [List.length_map]
  exact verdict_map hread fun _ => rfl

end Fieldwise
