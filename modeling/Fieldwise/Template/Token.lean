import Fieldwise.Template.Pos
import Fieldwise.Text.Quoted

/-!
# Tokens of a template

A template is text with actions between double braces. Tokens are the text stretches, the
delimiters, and the words, names, literals and marks inside the actions.
-/

set_option autoImplicit false

namespace Fieldwise

/-- The words that start or divide a control structure. -/
inductive Keyword where
  | ifWord
  | elseWord
  | endWord
  | rangeWord
  | withWord
  | defineWord
  | templateWord
  | blockWord
  | breakWord
  | continueWord
  deriving DecidableEq, Repr

namespace Keyword

/-- The spelling in a template. -/
def text : Keyword → String
  | ifWord => "if"
  | elseWord => "else"
  | endWord => "end"
  | rangeWord => "range"
  | withWord => "with"
  | defineWord => "define"
  | templateWord => "template"
  | blockWord => "block"
  | breakWord => "break"
  | continueWord => "continue"

/-- All keywords. -/
def all : List Keyword :=
  [ifWord, elseWord, endWord, rangeWord, withWord, defineWord, templateWord, blockWord,
    breakWord, continueWord]

/-- The keyword with the given spelling. -/
def ofText? (s : String) : Option Keyword :=
  all.find? fun k => k.text == s

/-- The keyword as the action that it stands for. -/
def inBraces (k : Keyword) : String :=
  "\x7b\x7b" ++ k.text ++ "\x7d\x7d"

end Keyword

/-- What a token is. Names of fields are kept without their dot, names of variables with their
dollar sign, strings without their quotes, and numbers as written. -/
inductive TokenKind where
  | text (s : String)
  | leftDelim
  | rightDelim
  | keyword (k : Keyword)
  | identifier (name : String)
  | field (name : String)
  | var (name : String)
  | dot
  | string (s : String)
  | number (s : String)
  | bool (b : Bool)
  | nil
  | pipe
  | leftParen
  | rightParen
  | declare
  | assign
  | comma
  | eof
  deriving DecidableEq, Repr

/-- A token, its place, and whether space stands before it inside its action. -/
structure Token where
  kind : TokenKind
  pos : Pos
  spaceBefore : Bool
  deriving DecidableEq, Repr

/-- How messages refer to a token. -/
def TokenKind.describe : TokenKind → String
  | text _ => "text"
  | leftDelim => "\"\x7b\x7b\""
  | rightDelim => "\"\x7d\x7d\""
  | keyword k => "<" ++ k.text ++ ">"
  | identifier name => "identifier " ++ Text.quoted name
  | field name => "field ." ++ name
  | var name => "variable " ++ name
  | dot => "<.>"
  | string s => "string " ++ Text.quoted s
  | number s => "number " ++ s
  | bool b => if b then "<true>" else "<false>"
  | nil => "<nil>"
  | pipe => "\"|\""
  | leftParen => "\"(\""
  | rightParen => "\")\""
  | declare => "\":=\""
  | assign => "\"=\""
  | comma => "\",\""
  | eof => "EOF"

end Fieldwise
