import Fieldwise.Text.Hexadecimal

/-!
# Text in TOML

Space, comments, line ends and the four kinds of strings. A string in double quotes may spell
characters behind a backslash, one in single quotes stands as it is written, and either may
span lines between three quotes.
-/

set_option autoImplicit false

namespace Fieldwise

namespace Toml

/-- Space within a line. -/
def isBlank (c : Char) : Bool :=
  c = ' ' || c = '\t'

/-- A character that may stand in a line: no control character but the tab. -/
def isPlain (c : Char) : Bool :=
  c = '\t' || (32 ≤ c.toNat && c.toNat ≠ 127)

/-- What follows the space at the head of a text. -/
def skipBlank (cs : List Char) : List Char :=
  cs.dropWhile isBlank

/-- What follows a line end. -/
def lineEnd? : List Char → Option (List Char)
  | '\n' :: rest => some rest
  | '\r' :: '\n' :: rest => some rest
  | _ => none

/-- What follows a comment, if one stands at the head of a text. -/
def skipComment (cs : List Char) : List Char :=
  match cs with
  | '#' :: rest => rest.dropWhile isPlain
  | _ => cs

/-- What follows the rest of a line that holds no more than space and a comment. -/
def restOfLine? (cs : List Char) : Option (List Char) :=
  match skipComment (skipBlank cs) with
  | [] => some []
  | rest => lineEnd? rest

/-- What follows space, comments and line ends. The number bounds the steps. -/
def skipLines : Nat → List Char → List Char
  | 0, cs => cs
  | steps + 1, cs =>
    let rest := skipComment (skipBlank cs)
    match lineEnd? rest with
    | some rest => skipLines steps rest
    | none => rest

/-- What follows space and line ends. -/
def skipSpace : List Char → List Char
  | '\r' :: '\n' :: rest => skipSpace rest
  | c :: rest => if isBlank c || c = '\n' then skipSpace rest else c :: rest
  | [] => []

/-! ## Strings -/

/-- The character that a letter behind a backslash stands for. -/
def escaped? (c : Char) : Option Char :=
  if c = '"' || c = '\\' then some c
  else if c = 'b' then some '\x08'
  else if c = 't' then some '\t'
  else if c = 'n' then some '\n'
  else if c = 'f' then some '\x0c'
  else if c = 'r' then some '\r'
  else none

/-- The value of hexadecimal digits. -/
def hexNumber? (cs : List Char) : Option Nat :=
  cs.foldlM (fun n c => (Text.hexValue? c).map (n * 16 + ·)) 0

/-- The character with a code point that is written in hexadecimal digits. -/
def codePoint? (digits : List Char) : Option Char :=
  match hexNumber? digits with
  | some n => if n.isValidChar then some (Char.ofNat n) else none
  | none => none

/-- Reads what stands behind a backslash, and the rest. -/
def readEscape : List Char → Option (Char × List Char)
  | 'u' :: rest =>
    if 4 ≤ rest.length then (codePoint? (rest.take 4)).map (·, rest.drop 4) else none
  | 'U' :: rest =>
    if 8 ≤ rest.length then (codePoint? (rest.take 8)).map (·, rest.drop 8) else none
  | c :: rest => (escaped? c).map (·, rest)
  | [] => none

/-- Adds a character in front of what was read. -/
def prepend (c : Char) (read : Option (List Char × List Char)) :
    Option (List Char × List Char) :=
  read.map fun (cs, rest) => (c :: cs, rest)

/-- Reads a string in double quotes behind its opening quote. -/
def readBasic : Nat → List Char → Option (List Char × List Char)
  | 0, _ => none
  | _, [] => none
  | fuel + 1, c :: rest =>
    if c = '"' then some ([], rest)
    else if c = '\\' then
      match readEscape rest with
      | none => none
      | some (c, rest) => prepend c (readBasic fuel rest)
    else if isPlain c then prepend c (readBasic fuel rest)
    else none

/-- Reads a string in single quotes behind its opening quote. -/
def readLiteral : List Char → Option (List Char × List Char)
  | [] => none
  | c :: rest =>
    if c = '\'' then some ([], rest)
    else if isPlain c then prepend c (readLiteral rest)
    else none

/-- How many of the quotes at the head of a text belong to the text, if three of them end it:
there may be up to two more in front of the ending three. -/
def closingQuotes? (quote : Char) (cs : List Char) : Option Nat :=
  let count := (cs.takeWhile (· = quote)).length
  if count < 3 then none else some (min (count - 3) 2)

/-- Reads a text of several lines in double quotes behind its opening. -/
def readBasicLines : Nat → List Char → Option (List Char × List Char)
  | 0, _ => none
  | _, [] => none
  | fuel + 1, c :: rest =>
    match lineEnd? (c :: rest) with
    | some rest => prepend '\n' (readBasicLines fuel rest)
    | none =>
      if c = '"' then
        match closingQuotes? '"' (c :: rest) with
        | some extra => some (List.replicate extra '"', (c :: rest).drop (extra + 3))
        | none => prepend c (readBasicLines fuel rest)
      else if c = '\\' then
        match lineEnd? (skipBlank rest) with
        | some rest => readBasicLines fuel (skipSpace rest)
        | none =>
          match readEscape rest with
          | none => none
          | some (c, rest) => prepend c (readBasicLines fuel rest)
      else if isPlain c then prepend c (readBasicLines fuel rest)
      else none

/-- Reads a text of several lines in single quotes behind its opening. -/
def readLiteralLines : Nat → List Char → Option (List Char × List Char)
  | 0, _ => none
  | _, [] => none
  | fuel + 1, c :: rest =>
    match lineEnd? (c :: rest) with
    | some rest => prepend '\n' (readLiteralLines fuel rest)
    | none =>
      if c = '\'' then
        match closingQuotes? '\'' (c :: rest) with
        | some extra => some (List.replicate extra '\'', (c :: rest).drop (extra + 3))
        | none => prepend c (readLiteralLines fuel rest)
      else if isPlain c then prepend c (readLiteralLines fuel rest)
      else none

/-- What follows a line end, if one stands at the head of a text. -/
def skipLineEnd (cs : List Char) : List Char :=
  (lineEnd? cs).getD cs

/-- Reads a string of any kind. -/
def readString (cs : List Char) : Option (List Char × List Char) :=
  match cs with
  | '"' :: '"' :: '"' :: rest => readBasicLines cs.length (skipLineEnd rest)
  | '\'' :: '\'' :: '\'' :: rest => readLiteralLines cs.length (skipLineEnd rest)
  | '"' :: rest => readBasic cs.length rest
  | '\'' :: rest => readLiteral rest
  | _ => none

/-! ## Keys -/

/-- A character of a key without quotes. -/
def isBareKey (c : Char) : Bool :=
  c.isAlphanum || c = '_' || c = '-'

/-- Reads one part of a key. -/
def readKeyPart (cs : List Char) : Option (String × List Char) :=
  match cs with
  | '"' :: rest => (readBasic cs.length rest).map fun (s, rest) => (String.ofList s, rest)
  | '\'' :: rest => (readLiteral rest).map fun (s, rest) => (String.ofList s, rest)
  | _ =>
    let key := cs.takeWhile isBareKey
    if key.isEmpty then none else some (String.ofList key, cs.dropWhile isBareKey)

/-- Reads the parts of a key with dots between them, and the space around them. -/
def readKeyParts : Nat → List Char → Option (List String × List Char)
  | 0, _ => none
  | fuel + 1, cs =>
    match readKeyPart (skipBlank cs) with
    | none => none
    | some (part, rest) =>
      match skipBlank rest with
      | '.' :: rest =>
        (readKeyParts fuel rest).map fun (parts, rest) => (part :: parts, rest)
      | rest => some ([part], rest)

/-- How deep the parts of a document may be nested. -/
def nestingBound : Nat := 80

/-- Reads a key, which has fewer parts than the bound on nesting. -/
def readKey (cs : List Char) : Option (List String × List Char) :=
  match readKeyParts (cs.length + 1) cs with
  | some (parts, rest) => if parts.length < nestingBound then some (parts, rest) else none
  | none => none

end Toml

end Fieldwise
