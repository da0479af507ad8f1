import Fieldwise.Decimal.Scaled
import Fieldwise.Document.Basic
import Fieldwise.Text.Hexadecimal

/-!
# Reading JSON

`Document.ofJson?` reads a text in JSON notation. A string may spell a character as two
halves; a half without its other one is well formed but denotes no text, and so is a number
too great for double precision. Both become broken documents.
-/

set_option autoImplicit false

namespace Fieldwise

namespace Json

/-- White space between the parts of a document. -/
def isBlank (c : Char) : Bool :=
  c = ' ' || c = '\n' || c = '\t' || c = '\r'

/-- What follows the white space. -/
def skipBlank (cs : List Char) : List Char :=
  cs.dropWhile isBlank

/-! ## Strings -/

/-- A part of a string: a character, or a 16-bit unit written by its number. -/
inductive Piece where
  | char (c : Char)
  | unit (n : Nat)

/-- The value of four hexadecimal digits. -/
def hexUnit? (a b c d : Char) : Option Nat := do
  let a ← Text.hexValue? a
  let b ← Text.hexValue? b
  let c ← Text.hexValue? c
  let d ← Text.hexValue? d
  return ((a * 16 + b) * 16 + c) * 16 + d

/-- The character that a letter behind a backslash stands for. -/
def escaped? (c : Char) : Option Char :=
  if c = '"' || c = '\\' || c = '/' then some c
  else if c = 'b' then some '\x08'
  else if c = 'f' then some '\x0c'
  else if c = 'n' then some '\n'
  else if c = 'r' then some '\r'
  else if c = 't' then some '\t'
  else none

/-- Reads the inside of a string and its closing quote. -/
def readPieces : List Char → Option (List Piece × List Char)
  | [] => none
  | '\\' :: 'u' :: a :: b :: c :: d :: rest =>
    match hexUnit? a b c d with
    | none => none
    | some n => (readPieces rest).map fun (pieces, rest) => (.unit n :: pieces, rest)
  | '\\' :: c :: rest =>
    match escaped? c with
    | none => none
    | some c => (readPieces rest).map fun (pieces, rest) => (.char c :: pieces, rest)
  | c :: rest =>
    if c = '"' then some ([], rest)
    else if c.toNat < 32 || c = '\\' then none
    else (readPieces rest).map fun (pieces, rest) => (.char c :: pieces, rest)

/-- The first half of a character beyond the 16-bit ones. -/
def isHighHalf (n : Nat) : Bool :=
  0xD800 ≤ n && n < 0xDC00

/-- The second half of a character beyond the 16-bit ones. -/
def isLowHalf (n : Nat) : Bool :=
  0xDC00 ≤ n && n < 0xE000

/-- The characters that pieces spell, unless a half stands alone. -/
def joinPieces : List Piece → Option (List Char)
  | [] => some []
  | .unit n :: .unit k :: rest =>
    if isHighHalf n then
      if isLowHalf k then
        (joinPieces rest).map
          (Char.ofNat (0x10000 + (n - 0xD800) * 0x400 + (k - 0xDC00)) :: ·)
      else none
    else if isLowHalf n then none
    else (joinPieces (.unit k :: rest)).map (Char.ofNat n :: ·)
  | .unit n :: rest =>
    if isHighHalf n || isLowHalf n then none
    else (joinPieces rest).map (Char.ofNat n :: ·)
  | .char c :: rest => (joinPieces rest).map (c :: ·)

/-- Reads a string behind its opening quote; the text is missing if it is broken. -/
def readString (cs : List Char) : Option (Option String × List Char) :=
  (readPieces cs).map fun (pieces, rest) => ((joinPieces pieces).map String.ofList, rest)

/-! ## Numbers -/

/-- The greatest whole number that is kept exactly. -/
def maxInteger : Nat := Nat.pow 2 64 - 1

/-- The negative whole number of the greatest size that is kept exactly. -/
def maxNegative : Nat := Nat.pow 2 63

/-- The document of a whole number; one out of range, or a negative zero, is a decimal. -/
def wholeNumber (negative : Bool) (digits : List Char) : Document :=
  let n := Decimal.digitsValue digits
  if negative then
    if 0 < n && n ≤ maxNegative then .integer (-(n : Int))
    else .decimal (Decimal.ofLeading true digits [] 0)
  else if n ≤ maxInteger then .integer n
  else .decimal (Decimal.ofLeading false digits [] 0)

/-- The document of a number that is not out of range. -/
def finite : Document → Document
  | .decimal x => if x.isInf then .broken else .decimal x
  | d => d

/-- Reads digits, of which there is at least one. -/
def readDigits (cs : List Char) : Option (List Char × List Char) :=
  let digits := cs.takeWhile Char.isDigit
  if digits.isEmpty then none else some (digits, cs.dropWhile Char.isDigit)

/-- Reads the digits before the point: a zero, or digits that do not start with one. -/
def readWhole (cs : List Char) : Option (List Char × List Char) :=
  match cs with
  | '0' :: rest => if rest.head?.any Char.isDigit then none else some (['0'], rest)
  | _ => readDigits cs

/-- Reads the point and the digits behind it, if they are there. -/
def readFraction (cs : List Char) : Option (Option (List Char) × List Char) :=
  match cs with
  | '.' :: rest => (readDigits rest).map fun (digits, rest) => (some digits, rest)
  | _ => some (none, cs)

/-- Reads an exponent, if it is there. -/
def readExponent (cs : List Char) : Option (Option Int × List Char) :=
  match cs with
  | c :: rest =>
    if c = 'e' || c = 'E' then
      let (negative, rest) :=
        match rest with
        | '-' :: rest => (true, rest)
        | '+' :: rest => (false, rest)
        | rest => (false, rest)
      (readDigits rest).map fun (digits, rest) =>
        (some (Decimal.signedValue negative digits), rest)
    else some (none, cs)
  | [] => some (none, [])

/-- Reads a number behind its sign. -/
def readNumber (negative : Bool) (cs : List Char) : Option (Document × List Char) := do
  let (whole, rest) ← readWhole cs
  let (fraction, rest) ← readFraction rest
  let (exponent, rest) ← readExponent rest
  let number :=
    match fraction, exponent with
    | none, none => wholeNumber negative whole
    | _, _ => .decimal (Decimal.ofLeading negative whole (fraction.getD []) (exponent.getD 0))
  return (finite number, rest)

/-! ## Documents -/

/-- Reads a literal word. -/
def readWord (word : String) (d : Document) (cs : List Char) : Option (Document × List Char) :=
  if word.toList.isPrefixOf cs then some (d, cs.drop word.length) else none

/-- A table, broken if one of its keys is. -/
def tableOf (entries : List (Option String × Document)) : Document :=
  match entries.mapM fun (key, value) => key.map fun key => (key, value) with
  | some entries => .table entries
  | none => .broken

mutual

/-- Reads a document. The number bounds the nesting of calls. -/
def readValue : Nat → List Char → Option (Document × List Char)
  | 0, _ => none
  | fuel + 1, cs =>
    match skipBlank cs with
    | '\x7b' :: rest =>
      match skipBlank rest with
      | '\x7d' :: rest => some (.table [], rest)
      | rest => (readEntries fuel rest).map fun (entries, rest) => (tableOf entries, rest)
    | '[' :: rest =>
      match skipBlank rest with
      | ']' :: rest => some (.sequence [], rest)
      | rest => (readItems fuel rest).map fun (items, rest) => (.sequence items, rest)
    | '"' :: rest =>
      (readString rest).map fun (s, rest) => ((s.map Document.text).getD .broken, rest)
    | '-' :: rest => readNumber true rest
    | 't' :: rest => readWord "rue" (.boolean true) rest
    | 'f' :: rest => readWord "alse" (.boolean false) rest
    | 'n' :: rest => readWord "ull" .null rest
    | rest => readNumber false rest
termination_by structural fuel => fuel

/-- Reads the items of a sequence, of which there is at least one, and its closing bracket. -/
def readItems : Nat → List Char → Option (List Document × List Char)
  | 0, _ => none
  | fuel + 1, cs =>
    match readValue fuel cs with
    | none => none
    | some (item, rest) =>
      match skipBlank rest with
      | ']' :: rest => some ([item], rest)
      | ',' :: rest => (readItems fuel rest).map fun (items, rest) => (item :: items, rest)
      | _ => none
termination_by structural fuel => fuel

/-- Reads the entries of a table, of which there is at least one, and its closing brace. -/
def readEntries : Nat → List Char → Option (List (Option String × Document) × List Char)
  | 0, _ => none
  | fuel + 1, cs =>
    match skipBlank cs with
    | '"' :: rest =>
      match readString rest with
      | none => none
      | some (key, rest) =>
        match skipBlank rest with
        | ':' :: rest =>
          match readValue fuel rest with
          | none => none
          | some (value, rest) =>
            match skipBlank rest with
            | '\x7d' :: rest => some ([(key, value)], rest)
            | ',' :: rest =>
              (readEntries fuel rest).map fun (entries, rest) => ((key, value) :: entries, rest)
            | _ => none
        | _ => none
    | _ => none
termination_by structural fuel => fuel

end

end Json

/-- The document that a JSON text denotes. -/
def Document.ofJson? (source : String) : Option Document :=
  match Json.readValue (2 * source.length + 1) source.toList with
  | some (d, rest) => if (Json.skipBlank rest).isEmpty then some d else none
  | none => none

end Fieldwise
