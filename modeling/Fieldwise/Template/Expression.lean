import Fieldwise.Template.Basic
import Fieldwise.Template.Segment

/-!
# Reading the pipelines of an action

`readPipeline` reads optional declarations and then commands joined by bars, up to the right
delimiter or to the parenthesis that closes it. Reading goes from left to right and stops at
the first token that does not fit.

A variable may be used from its declaration on. The list of variables in scope is passed
along, so that a declaration in parentheses is seen by what follows them.
-/

set_option autoImplicit false

namespace Fieldwise

/-- The names of the variables in scope, latest first. -/
abbrev Scope := List String

/-- The variable that stands for the data of the whole template. -/
def rootVariable : String := "$"

/-- How deep parentheses and control structures may nest together. -/
def maxNesting : Nat := 100

/-- What is left of an action: its tokens before the right delimiter, and the variables in
scope. -/
structure Cursor where
  tokens : List Token
  scope : Scope

/-- Where a pipeline ends. -/
inductive Ending where
  | delimiter
  | parenthesis
  deriving DecidableEq

/-- The token that ends a pipeline. -/
def Ending.kind : Ending → TokenKind
  | delimiter => .rightDelim
  | parenthesis => .rightParen

namespace Cursor

/-- The next token; behind the last one stands the right delimiter `close`. -/
def peek (close : Token) (c : Cursor) : Token :=
  c.tokens.headD close

/-- The cursor behind the next token. -/
def next (c : Cursor) : Cursor :=
  { c with tokens := c.tokens.tail }

/-- Refuses a variable that is not in scope. -/
def checkVariable (c : Cursor) (name : String) (pos : Pos) : Except TemplateError Unit :=
  if c.scope.contains name then .ok () else .error ⟨pos, .undefinedVariable name⟩

/-- Refuses the next token. -/
def unexpected {α : Type} (close : Token) (c : Cursor) (context : Context) :
    Except TemplateError α :=
  .error ⟨(c.peek close).pos, .unexpectedToken (c.peek close).kind context⟩

end Cursor

/-! ## Declarations -/

/-- Takes the declared variables into scope, or checks the assigned ones. -/
def bindVariables (assigns : Bool) : List DeclaredVariable → Cursor →
    Except TemplateError Cursor
  | [], c => .ok c
  | v :: vs, c =>
    if assigns then
      match c.checkVariable v.name v.pos with
      | .error e => .error e
      | .ok () => bindVariables assigns vs c
    else bindVariables assigns vs { c with scope := v.name :: c.scope }

/-- Reads the declarations at the head of a pipeline: one variable, or two in a range, with the
mark that declares or assigns them. -/
def readDeclared (close : Token) (context : Context) (c : Cursor) :
    Except TemplateError (Bool × List DeclaredVariable × Cursor) :=
  match c.tokens with
  | ⟨.var name, pos, _⟩ :: ⟨.declare, _, _⟩ :: rest =>
    let declared := [⟨pos, name⟩]
    (bindVariables false declared { c with tokens := rest }).map (false, declared, ·)
  | ⟨.var name, pos, _⟩ :: ⟨.assign, _, _⟩ :: rest =>
    let declared := [⟨pos, name⟩]
    (bindVariables true declared { c with tokens := rest }).map (true, declared, ·)
  | ⟨.var name, pos, _⟩ :: ⟨.comma, _, _⟩ :: rest =>
    let second : Cursor := { c with tokens := rest }
    match (second.peek close).kind with
    | .var other =>
      let declared := [⟨pos, name⟩, ⟨(second.peek close).pos, other⟩]
      let mark := second.next.peek close
      if mark.kind = .declare || mark.kind = .assign then
        if context = .opening .range then
          let assigns := mark.kind = .assign
          (bindVariables assigns declared second.next.next).map (decide assigns, declared, ·)
        else .error ⟨pos, .tooManyVariables context⟩
      else second.next.unexpected close context
    | _ => second.unexpected close context
  | _ => .ok (false, [], c)

/-! ## Operands -/

/-- Splits off the names of the fields that follow without space. -/
def takeFields : List Token → List String × List Token
  | ⟨.field name, pos, spaceBefore⟩ :: rest =>
    if spaceBefore then ([], ⟨.field name, pos, spaceBefore⟩ :: rest)
    else (name :: (takeFields rest).1, (takeFields rest).2)
  | rest => ([], rest)

/-- An operand with the fields written behind it. -/
def attachFields (term : Operand) (fields : List String) : Except TemplateError Operand :=
  if fields.isEmpty then .ok term
  else
    match term with
    | .field pos names => .ok (.field pos (names ++ fields))
    | .var pos name more => .ok (.var pos name (more ++ fields))
    | .dot _ | .bool _ _ | .nil _ | .string _ _ | .number _ _ =>
      .error ⟨term.pos, .fieldAfter term.kindName⟩
    | _ => .ok (.chain term fields)

/-- The operand that a single token stands for, if it stands for one. -/
def Token.operand? (t : Token) (c : Cursor) : Except TemplateError (Option Operand) :=
  match t.kind with
  | .identifier name =>
    if isFunction name then .ok (some (.identifier t.pos name))
    else .error ⟨t.pos, .undefinedFunction name⟩
  | .dot => .ok (some (.dot t.pos))
  | .nil => .ok (some (.nil t.pos))
  | .bool value => .ok (some (.bool t.pos value))
  | .var name => (c.checkVariable name t.pos).map fun () => some (.var t.pos name [])
  | .field name => .ok (some (.field t.pos [name]))
  | .string text => .ok (some (.string t.pos text))
  | .number text => .ok (some (.number t.pos text))
  | _ => .ok none

/-! ## Pipelines

The number `fuel` bounds the nesting of the calls below; `readPipeline` starts with enough of
it for the tokens at hand. `depth` counts the control structures and parentheses around the
cursor. -/

mutual

/-- Reads declarations and commands, up to and including the token that ends them. -/
def pipelineFrom (close : Token) (ending : Ending) (context : Context) (depth : Nat) :
    Nat → Cursor → Except TemplateError (Pipeline Operand × Cursor)
  | 0, c => .error ⟨(c.peek close).pos, .parenthesesTooDeep⟩
  | fuel + 1, c =>
    match readDeclared close context c with
    | .error e => .error e
    | .ok (assigns, declared, inner) =>
      if (inner.peek close).kind = ending.kind then
        .error ⟨(inner.peek close).pos, .missingValue context⟩
      else
        match commandsFrom close ending depth fuel inner with
        | .error e => .error e
        | .ok (commands, rest) => .ok (⟨(c.peek close).pos, assigns, declared, commands⟩, rest)
termination_by structural fuel => fuel

/-- Reads commands joined by bars, up to and including the token that ends them. -/
def commandsFrom (close : Token) (ending : Ending) (depth : Nat) :
    Nat → Cursor → Except TemplateError (List (Command Operand) × Cursor)
  | 0, c => .error ⟨(c.peek close).pos, .parenthesesTooDeep⟩
  | fuel + 1, c =>
    match operandsFrom close ending depth fuel c with
    | .error e => .error e
    | .ok (args, rest) =>
      let command := ⟨(c.peek close).pos, args⟩
      if (rest.peek close).kind = .pipe then
        match commandsFrom close ending depth fuel rest.next with
        | .error e => .error e
        | .ok (commands, rest) => .ok (command :: commands, rest)
      else .ok ([command], rest.next)
termination_by structural fuel => fuel

/-- Reads operands with space between them, up to a bar or the token that ends the pipeline. -/
def operandsFrom (close : Token) (ending : Ending) (depth : Nat) :
    Nat → Cursor → Except TemplateError (List Operand × Cursor)
  | 0, c => .error ⟨(c.peek close).pos, .parenthesesTooDeep⟩
  | fuel + 1, c =>
    match termFrom close depth fuel c with
    | .error e => .error e
    | .ok (none, _) => c.unexpected close .operand
    | .ok (some term, rest) =>
      match attachFields term (takeFields rest.tokens).1 with
      | .error e => .error e
      | .ok operand =>
        let rest := { rest with tokens := (takeFields rest.tokens).2 }
        let follower := rest.peek close
        if follower.kind = ending.kind || follower.kind = .pipe then .ok ([operand], rest)
        else if follower.spaceBefore then
          match operandsFrom close ending depth fuel rest with
          | .error e => .error e
          | .ok (operands, rest) => .ok (operand :: operands, rest)
        else rest.unexpected close .operand
termination_by structural fuel => fuel

/-- Reads an operand without the fields behind it, or nothing if none stands here. -/
def termFrom (close : Token) (depth : Nat) :
    Nat → Cursor → Except TemplateError (Option Operand × Cursor)
  | 0, c => .error ⟨(c.peek close).pos, .parenthesesTooDeep⟩
  | fuel + 1, c =>
    let token := c.peek close
    if token.kind = .leftParen then
      if depth < maxNesting then
        match pipelineFrom close .parenthesis .parentheses (depth + 1) fuel c.next with
        | .error e => .error e
        | .ok (pipe, rest) => .ok (some (.group pipe), rest)
      else .error ⟨token.pos, .parenthesesTooDeep⟩
    else
      match token.operand? c with
      | .error e => .error e
      | .ok none => .ok (none, c)
      | .ok (some operand) => .ok (some operand, c.next)
termination_by structural fuel => fuel

end

/-- Reads a pipeline that reaches to the right delimiter `close`: the pipeline and the scope
behind it. -/
def readPipeline (close : Token) (context : Context) (depth : Nat) (c : Cursor) :
    Except TemplateError (Pipeline Operand × Scope) :=
  (pipelineFrom close .delimiter context depth (4 * c.tokens.length + 4) c).map
    fun (pipe, rest) => (pipe, rest.scope)

end Fieldwise
