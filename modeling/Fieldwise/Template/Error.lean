import Fieldwise.Template.Functions
import Fieldwise.Template.Token

/-!
# What can be wrong with a template

A template is refused either because it is not well formed or because it uses a construct
whose fields cannot be told from its text. Each refusal names its cause and its place.
-/

set_option autoImplicit false

namespace Fieldwise

/-- The control structures with a body. -/
inductive BranchKind where
  | conditional
  | range
  | focus
  deriving DecidableEq, Repr

/-- The keyword that opens a control structure. -/
def BranchKind.keyword : BranchKind → Keyword
  | conditional => .ifWord
  | range => .rangeWord
  | focus => .withWord

/-- What was being read where a token did not fit. -/
inductive Context where
  | command
  | opening (kind : BranchKind)
  | templateClause
  | parentheses
  | operand
  | word (k : Keyword)
  deriving DecidableEq, Repr

/-- How messages name a context. -/
def Context.describe : Context → String
  | command => "command"
  | opening kind => kind.keyword.text
  | templateClause => "template clause"
  | parentheses => "parenthesized pipeline"
  | operand => "operand"
  | word k => k.text

/-- The cause of a refusal. -/
inductive TemplateFault where
  /- The characters of an action. -/
  | unclosedAction
  | unclosedComment
  | textAfterComment
  | loneColon
  | unterminatedString
  | badEscape
  | badHexEscape
  | notACharacter
  | unterminatedRawString
  | unterminatedCharacter
  | badNumber (written : String)
  | unknownCharacter (c : Char)
  /- The order of the tokens. -/
  | unexpectedToken (kind : TokenKind) (context : Context)
  | strayEnd
  | strayElse
  | secondElse (kind : BranchKind)
  | missingEnd (kind : BranchKind) (opened : Pos)
  | notInRange (k : Keyword)
  | unsupportedKeyword (k : Keyword)
  | missingValue (context : Context)
  | tooManyVariables (context : Context)
  | undefinedVariable (name : String)
  | undefinedFunction (name : String)
  | fieldAfter (operand : String)
  | structuresTooDeep
  | parenthesesTooDeep
  /- The fields that a template uses. -/
  | unrecognizedNode (node : String)
  | fieldsTooDeep (limit : Nat)
  | fieldOfCall
  | fieldOfOperand (operand : String)
  | indexArguments (count : Nat)
  | rangeCommands (count : Nat)
  | rangeCall (name : String)
  | rangeArguments (count : Nat)
  | rangeOperand (operand : String)
  deriving DecidableEq, Repr

namespace TemplateFault

/-- Well formed, but outside what can be checked. -/
def isUnsupported : TemplateFault → Bool
  | fieldOfCall | fieldOfOperand _ | indexArguments _ | rangeCommands _ | rangeCall _
  | rangeArguments _ | rangeOperand _ => true
  | _ => false

/-- The wording of the cause. -/
def message : TemplateFault → String
  | unclosedAction => "unclosed action"
  | unclosedComment => "unclosed comment"
  | textAfterComment => "comment ends before closing delimiter"
  | loneColon => "expected :="
  | unterminatedString => "unterminated quoted string"
  | badEscape => "invalid escape in quoted string"
  | badHexEscape => "invalid hex escape"
  | notACharacter => "invalid unicode escape"
  | unterminatedRawString => "unterminated raw quoted string"
  | unterminatedCharacter => "unterminated character constant"
  | badNumber written => "bad number syntax: " ++ written
  | unknownCharacter c => "unrecognized character in action: " ++ Text.quotedChar c
  | unexpectedToken kind context => "unexpected " ++ kind.describe ++ " in " ++ context.describe
  | strayEnd => "unexpected " ++ Keyword.endWord.inBraces
  | strayElse => "unexpected " ++ Keyword.elseWord.inBraces
  | secondElse kind =>
    "expected " ++ Keyword.endWord.inBraces ++ "; found " ++ Keyword.elseWord.inBraces ++ " in "
      ++ kind.keyword.inBraces
  | missingEnd kind opened =>
    "unexpected EOF, missing " ++ Keyword.endWord.inBraces ++ " for " ++ kind.keyword.inBraces
      ++ " at " ++ opened.render
  | notInRange k => k.inBraces ++ " outside " ++ Keyword.rangeWord.inBraces
  | unsupportedKeyword k => k.inBraces ++ " is not supported"
  | missingValue context => "missing value for " ++ context.describe
  | tooManyVariables context => "too many declarations in " ++ context.describe
  | undefinedVariable name => "undefined variable " ++ Text.quoted name
  | undefinedFunction name => "function " ++ Text.quoted name ++ " not defined"
  | fieldAfter operand => "unexpected . after term " ++ operand
  | structuresTooDeep => "max control structure depth exceeded"
  | parenthesesTooDeep => "max expression depth exceeded"
  | unrecognizedNode node => "unrecognized node kind: " ++ node
  | fieldsTooDeep limit =>
    "max field depth exceeded: more than " ++ toString limit ++ " levels"
  | fieldOfCall => "field access on the result of a function call"
  | fieldOfOperand operand => "field access on a " ++ operand ++ " operand"
  | indexArguments count =>
    indexFunction ++ " expects a field and exactly one integer index, got " ++ toString count
      ++ " argument(s)"
  | rangeCommands count => "range over " ++ toString count ++ " commands, expected 1"
  | rangeCall name =>
    "range over a call to " ++ Text.quoted name ++ ", only "
      ++ ", ".intercalate passthroughFunctions ++ " are supported"
  | rangeArguments count => "range over " ++ toString count ++ " arguments, expected a field"
  | rangeOperand operand => "range over a " ++ operand ++ " operand, expected a field"

end TemplateFault

/-- A refusal and the place in the source that it points to. -/
structure TemplateError where
  pos : Pos
  fault : TemplateFault
  deriving DecidableEq, Repr

namespace TemplateError

/-- The full text of a refusal. -/
def message (e : TemplateError) : String :=
  (if e.fault.isUnsupported then "unsupported template construct at "
    else "template syntax error at ") ++ e.pos.render ++ ": " ++ e.fault.message

end TemplateError

end Fieldwise
