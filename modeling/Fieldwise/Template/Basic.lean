import Fieldwise.Template.Error

/-!
# Templates

A template is a list of nodes: text, actions that print a pipeline, and control structures
with lists of nodes of their own. A pipeline is a chain of commands, and a command is a
function with its arguments or a single operand.
-/

set_option autoImplicit false

namespace Fieldwise

/-- A variable where a pipeline declares or assigns it. -/
structure DeclaredVariable where
  pos : Pos
  name : String
  deriving DecidableEq, Repr

/-- Operands side by side: a function call or a lone operand. -/
structure Command (α : Type) where
  pos : Pos
  args : List α
  deriving Repr

/-- Commands joined by bars, whose value may go to variables. -/
structure Pipeline (α : Type) where
  pos : Pos
  assigns : Bool
  declared : List DeclaredVariable
  commands : List (Command α)
  deriving Repr

/-- One argument of a command. A variable keeps its dollar sign; the fields after a field or a
variable belong to it, and a chain holds the fields after any other operand. -/
inductive Operand where
  | dot (pos : Pos)
  | field (pos : Pos) (names : List String)
  | var (pos : Pos) (name : String) (fields : List String)
  | identifier (pos : Pos) (name : String)
  | chain (base : Operand) (fields : List String)
  | group (pipe : Pipeline Operand)
  | string (pos : Pos) (text : String)
  | number (pos : Pos) (text : String)
  | bool (pos : Pos) (value : Bool)
  | nil (pos : Pos)
  deriving Repr

namespace Operand

/-- Where an operand starts; for parentheses, where their inside starts. -/
def pos : Operand → Pos
  | dot pos | field pos _ | var pos _ _ | identifier pos _ | string pos _ | number pos _
  | bool pos _ | nil pos => pos
  | chain base _ => base.pos
  | group pipe => pipe.pos

/-- How messages name the kind of an operand. -/
def kindName : Operand → String
  | dot _ => "dot"
  | field _ _ => "field"
  | var _ _ _ => "variable"
  | identifier _ _ => "identifier"
  | chain _ _ => "chain"
  | group _ => "pipeline"
  | string _ _ => "string"
  | number _ _ => "number"
  | bool _ _ => "bool"
  | nil _ => "nil"

end Operand

/-- Nodes in a row and the place where they start. -/
structure NodeList (α : Type) where
  pos : Pos
  nodes : List α
  deriving Repr

/-- A part of a template. -/
inductive Node where
  | text (pos : Pos) (s : String)
  | action (pos : Pos) (pipe : Pipeline Operand)
  | branch (kind : BranchKind) (pos : Pos) (pipe : Pipeline Operand) (body : NodeList Node)
      (alternative : Option (NodeList Node))
  | template (pos : Pos) (name : String) (pipe : Option (Pipeline Operand))
  | leave (pos : Pos)
  | skip (pos : Pos)
  deriving Repr

namespace Node

/-- Where a node starts. -/
def pos : Node → Pos
  | text pos _ | action pos _ | branch _ pos _ _ _ | template pos _ _ | leave pos
  | skip pos => pos

/-- How messages name the kind of a node. -/
def kindName : Node → String
  | text _ _ => "text"
  | action _ _ => "action"
  | branch kind _ _ _ _ => kind.keyword.text
  | template _ _ _ => Keyword.templateWord.text
  | leave _ => Keyword.breakWord.text
  | skip _ => Keyword.continueWord.text

end Node

/-- A template as its nodes. -/
abbrev Template := NodeList Node

/-- A number literal that denotes a whole number, whatever its base. A character constant
counts as one. -/
def isWholeNumber (text : String) : Bool :=
  let digits := (text.toList.dropWhile fun c => c = '+' || c = '-').map Char.toLower
  match digits with
  | '\'' :: _ => true
  | '0' :: 'x' :: _ => !digits.contains 'p' && digits.getLast? != some 'i'
  | _ => !digits.contains '.' && !digits.contains 'e' && !digits.contains 'i'

end Fieldwise
