import Fieldwise.Decimal.Shortest
import Fieldwise.Document.Basic
import Fieldwise.Text.Hexadecimal

/-!
# Writing JSON

A document is written in JSON notation either in one line without space, or with one item or
entry to a line and two spaces of indentation for each level. Empty sequences and tables stay
in one line.
-/

set_option autoImplicit false

namespace Fieldwise

namespace Json

/-- The four hexadecimal digits of a control character. -/
def controlEscape (c : Char) : List Char :=
  ['\\', 'u', '0', '0', Text.hexDigit (c.toNat / 16), Text.hexDigit (c.toNat % 16)]

/-- A character inside a string. -/
def escapeChar (c : Char) : List Char :=
  if c = '"' || c = '\\' then ['\\', c]
  else if c = '\x08' then ['\\', 'b']
  else if c = '\x0c' then ['\\', 'f']
  else if c = '\n' then ['\\', 'n']
  else if c = '\r' then ['\\', 'r']
  else if c = '\t' then ['\\', 't']
  else if c.toNat < 32 then controlEscape c
  else [c]

/-- A text in quotes. -/
def quote (s : String) : String :=
  String.ofList ('"' :: s.toList.flatMap escapeChar ++ ['"'])

/-- A scalar; what denotes no value is written as `null`. -/
def scalar : Document → String
  | .boolean b => if b then "true" else "false"
  | .integer n => toString n
  | .decimal x => if x.isFinite then Decimal.render x else "null"
  | .text s => quote s
  | .moment s => quote s
  | _ => "null"

/-- How the parts of a document are set apart. -/
structure Layout where
  /-- What stands before an item or entry at the given depth. -/
  lead : Nat → String
  /-- What stands between a key and its value. -/
  colon : String

/-- Everything in one line. -/
def Layout.compact : Layout := ⟨fun _ => "", ":"⟩

/-- One item or entry to a line. -/
def Layout.pretty : Layout :=
  ⟨fun depth => "\n" ++ String.ofList (List.replicate (2 * depth) ' '), ": "⟩

mutual

/-- A document whose items or entries lie at the given depth. -/
def print (layout : Layout) (depth : Nat) : Document → String
  | .sequence [] => "[]"
  | .sequence (item :: items) =>
    "[" ++ layout.lead depth ++ print layout (depth + 1) item ++ printItems layout depth items
      ++ layout.lead (depth - 1) ++ "]"
  | .table [] => "\x7b\x7d"
  | .table (entry :: entries) =>
    "\x7b" ++ layout.lead depth ++ printEntry layout depth entry
      ++ printEntries layout depth entries ++ layout.lead (depth - 1) ++ "\x7d"
  | d => scalar d
termination_by structural d => d

/-- The items of a sequence behind its first. -/
def printItems (layout : Layout) (depth : Nat) : List Document → String
  | [] => ""
  | item :: items =>
    "," ++ layout.lead depth ++ print layout (depth + 1) item ++ printItems layout depth items
termination_by structural items => items

/-- The entries of a table behind its first. -/
def printEntries (layout : Layout) (depth : Nat) : List (String × Document) → String
  | [] => ""
  | entry :: entries =>
    "," ++ layout.lead depth ++ printEntry layout depth entry ++ printEntries layout depth entries
termination_by structural entries => entries

/-- An entry of a table. -/
def printEntry (layout : Layout) (depth : Nat) : String × Document → String
  | (key, value) => quote key ++ layout.colon ++ print layout (depth + 1) value
termination_by structural entry => entry

end

end Json

/-- The document in one line. -/
def Document.toJson (d : Document) : String :=
  Json.print .compact 1 d

/-- The document with one item or entry to a line. -/
def Document.toPrettyJson (d : Document) : String :=
  Json.print .pretty 1 d

end Fieldwise
