import Fieldwise.Text.Hexadecimal

/-!
# Writing TOML

A text is written in the plainest kind of string that can hold it: in double quotes if nothing
in it has to be escaped, then in single quotes, then between three double or three single
quotes, and only then with escapes. A text with a line end is written over several lines.
-/

set_option autoImplicit false

namespace Fieldwise

namespace Toml

/-- The length of the longest row of a character in a text; `row` is the length of the row in
front of it. -/
def longestRow (c : Char) (row : Nat) : List Char → Nat
  | [] => row
  | d :: rest => if d = c then longestRow c (row + 1) rest else max row (longestRow c 0 rest)

/-- A control character other than the tab and the line end. -/
def isControl (c : Char) : Bool :=
  (c.toNat < 32 && c ≠ '\t' && c ≠ '\n') || c.toNat = 127

/-- The kinds of strings. -/
inductive StringKind where
  | basic
  | literal
  | longBasic
  | longLiteral
  deriving DecidableEq, Repr

namespace StringKind

/-- What stands on both sides of a string. -/
def delimiter : StringKind → String
  | basic => "\""
  | literal => "'"
  | longBasic => "\"\"\""
  | longLiteral => "'''"

/-- The string may span lines. -/
def isLong : StringKind → Bool
  | longBasic | longLiteral => true
  | _ => false

/-- The string spells characters behind a backslash. -/
def escapes : StringKind → Bool
  | basic | longBasic => true
  | _ => false

/-- The kind of string that a text is written in. -/
def ofText (cs : List Char) : StringKind :=
  let hasControl := cs.any isControl
  let hasBackslash := cs.contains '\\'
  let hasLineEnd := cs.contains '\n'
  let doubles := longestRow '"' 0 cs
  let singles := longestRow '\'' 0 cs
  if !hasControl && !hasBackslash && doubles = 0 && !hasLineEnd then basic
  else if !hasControl && singles = 0 && !hasLineEnd then literal
  else if !hasControl && !hasBackslash && doubles ≤ 2 then longBasic
  else if !hasControl && singles ≤ 2 then longLiteral
  else if hasLineEnd then longBasic
  else basic

/-- How many double quotes may follow each other without an escape. -/
def quotesInRow : StringKind → Nat
  | longBasic => 2
  | _ => 0

end StringKind

/-- A character behind a backslash, by its letter or by its number. -/
def escape (c : Char) : List Char :=
  if c = '\x08' then ['\\', 'b']
  else if c = '\t' then ['\\', 't']
  else if c = '\n' then ['\\', 'n']
  else if c = '\x0c' then ['\\', 'f']
  else if c = '\r' then ['\\', 'r']
  else if c = '"' || c = '\\' then ['\\', c]
  else
    ['\\', 'u', '0', '0', Text.upperHexDigit (c.toNat / 16), Text.upperHexDigit (c.toNat % 16)]

/-- Spells the inside of a string with escapes; `row` counts the double quotes just before. -/
def escapeText (kind : StringKind) (row : Nat) : List Char → List Char
  | [] => []
  | c :: rest =>
    if c = '"' then
      if row < kind.quotesInRow then c :: escapeText kind (row + 1) rest
      else escape c ++ escapeText kind 0 rest
    else if c = '\\' || c = '\t' || isControl c || (c = '\n' && !kind.isLong) then
      escape c ++ escapeText kind 0 rest
    else c :: escapeText kind 0 rest

/-- A text as a string. -/
def quote (s : String) : String :=
  let cs := s.toList
  let kind := StringKind.ofText cs
  let inside := if kind.escapes then escapeText kind 0 cs else cs
  let opening := if kind.isLong && cs.contains '\n' then ['\n'] else []
  kind.delimiter ++ String.ofList (opening ++ inside) ++ kind.delimiter

/-- A truth value. -/
def truth (b : Bool) : String :=
  if b then "true" else "false"

/-- A table under its header, with values that are written already. -/
def writeTable (name : String) (entries : List (String × String)) : String :=
  "[" ++ name ++ "]\n" ++
    String.join (entries.map fun (key, value) => key ++ " = " ++ value ++ "\n")

end Toml

end Fieldwise
