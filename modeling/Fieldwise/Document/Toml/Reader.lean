import Fieldwise.Document.Toml.Scalar
import Fieldwise.Document.Toml.Table
import Fieldwise.Document.Toml.Text

/-!
# Reading TOML

`Document.ofToml?` reads a text in TOML 1.0: values under keys, headers of tables, and
comments. What each key and header opens is decided where the tables are put together.
-/

set_option autoImplicit false

namespace Fieldwise

namespace Toml

/-- The last part of a key and the parts in front of it. -/
def splitKey : List String → Option (List String × String)
  | [] => none
  | [key] => some ([], key)
  | part :: rest => (splitKey rest).map fun (parts, key) => (part :: parts, key)

mutual

/-- Reads a value inside `depth` brackets. The number bounds the nesting of calls. -/
def readValue (depth : Nat) : Nat → List Char → Option (Node × List Char)
  | 0, _ => none
  | fuel + 1, cs =>
    match cs with
    | '[' :: rest =>
      if depth + 1 < nestingBound then
        (readItems (depth + 1) fuel rest).map fun (items, rest) =>
          (.value (.sequence items), rest)
      else none
    | '\x7b' :: rest =>
      if depth + 1 < nestingBound then
        match skipBlank rest with
        | '\x7d' :: rest => some (.value (.table []), rest)
        | _ =>
          match readPairs (depth + 1) fuel rest with
          | none => none
          | some (pairs, rest) =>
            (tableOfPairs pairs).map fun node => (.value node.toDocument, rest)
      else none
    | _ =>
      if cs.head?.any (fun c => c = '"' || c = '\'') then
        (readString cs).map fun (s, rest) => (.value (.text (String.ofList s)), rest)
      else (readScalar cs).map fun (d, rest) => (.value d, rest)
termination_by structural fuel => fuel

/-- Reads the items of a sequence and its closing bracket; a comma may stand in front of it. -/
def readItems (depth : Nat) : Nat → List Char → Option (List Document × List Char)
  | 0, _ => none
  | fuel + 1, cs =>
    match skipLines cs.length cs with
    | ']' :: rest => some ([], rest)
    | cs =>
      match readValue depth fuel cs with
      | none => none
      | some (node, rest) =>
        match skipLines rest.length rest with
        | ']' :: rest => some ([node.toDocument], rest)
        | ',' :: rest =>
          (readItems depth fuel rest).map fun (items, rest) => (node.toDocument :: items, rest)
        | _ => none
termination_by structural fuel => fuel

/-- Reads a value and its key. -/
def readPair (depth : Nat) : Nat → List Char → Option (Pair × List Char)
  | 0, _ => none
  | fuel + 1, cs =>
    match readKey cs with
    | some (parts, '=' :: rest) =>
      match splitKey parts, readValue depth fuel (skipBlank rest) with
      | some (parts, key), some (node, rest) => some (⟨parts, key, node⟩, rest)
      | _, _ => none
    | _ => none
termination_by structural fuel => fuel

/-- Reads the pairs of a table within a line, of which there is at least one, and its closing
brace. -/
def readPairs (depth : Nat) : Nat → List Char → Option (List Pair × List Char)
  | 0, _ => none
  | fuel + 1, cs =>
    match readPair depth fuel cs with
    | none => none
    | some (pair, rest) =>
      match skipBlank rest with
      | '\x7d' :: rest => some ([pair], rest)
      | ',' :: rest => (readPairs depth fuel rest).map fun (pairs, rest) => (pair :: pairs, rest)
      | _ => none
termination_by structural fuel => fuel

end

/-- Reads a header behind its first bracket. -/
def readHeader (cs : List Char) : Option (Header × List String × List Char) :=
  match cs with
  | '[' :: rest =>
    match readKey rest with
    | some (parts, ']' :: ']' :: rest) => some (.row, parts, rest)
    | _ => none
  | _ =>
    match readKey cs with
    | some (parts, ']' :: rest) => some (.table, parts, rest)
    | _ => none

/-- Reads the lines up to the next header or the end: their pairs and the rest. -/
def readBlock : Nat → List Char → Option (List Pair × List Char)
  | 0, _ => none
  | fuel + 1, cs =>
    match skipLines cs.length cs with
    | [] => some ([], [])
    | '[' :: rest => some ([], '[' :: rest)
    | cs =>
      match readPair 0 (2 * cs.length + 2) cs with
      | none => none
      | some (pair, rest) =>
        match restOfLine? rest with
        | none => none
        | some rest => (readBlock fuel rest).map fun (pairs, rest) => (pair :: pairs, rest)

/-- Reads the sections of a document. -/
def readSections : Nat → List Char → Option (List Section)
  | 0, _ => none
  | fuel + 1, cs =>
    match cs with
    | [] => some []
    | '[' :: rest =>
      match readHeader rest with
      | none => none
      | some (header, parts, rest) =>
        match splitKey parts, restOfLine? rest with
        | some (parts, key), some rest =>
          match readBlock (rest.length + 1) rest with
          | none => none
          | some (pairs, rest) => (readSections fuel rest).map (⟨header, parts, key, pairs⟩ :: ·)
        | _, _ => none
    | _ => none

/-- The text without the mark that may stand at its head to tell its encoding. -/
def skipMark : List Char → List Char
  | '\ufeff' :: rest => rest
  | cs => cs

end Toml

/-- The document that a TOML text denotes. -/
def Document.ofToml? (source : String) : Option Document :=
  let cs := Toml.skipMark source.toList
  match Toml.readBlock (cs.length + 1) cs with
  | none => none
  | some (pairs, rest) =>
    match Toml.readSections (rest.length + 1) rest with
    | none => none
    | some sections => Toml.assemble pairs sections

end Fieldwise
