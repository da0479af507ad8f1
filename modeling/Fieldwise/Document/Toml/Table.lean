import Fieldwise.Document.Basic

/-!
# Tables in TOML

A document in TOML is put together from headers and from keys with several parts. Each of them
may open tables on its way, but no table may be written out twice: a table opened on the way
to another one can still get a header of its own, while a table opened by the parts of a key
can only get further keys, and only from such keys.
-/

set_option autoImplicit false

namespace Fieldwise

namespace Toml

/-- A part of a document that is being put together. -/
inductive Node where
  | value (d : Document)
  /-- `implicit` until it is written out itself; `dotted` if parts of a key opened it. -/
  | table (implicit dotted : Bool) (entries : List (String × Node))
  /-- The tables written under one header in double brackets. -/
  | tables (items : List (List (String × Node)))

mutual

/-- The finished document. -/
def Node.toDocument : Node → Document
  | .value d => d
  | .table _ _ entries => .table (entriesToDocuments entries)
  | .tables items => .sequence (tablesToDocuments items)
termination_by structural node => node

/-- The finished entries of a table. -/
def entriesToDocuments : List (String × Node) → List (String × Document)
  | [] => []
  | entry :: rest => entryToDocument entry :: entriesToDocuments rest
termination_by structural entries => entries

/-- A finished entry of a table. -/
def entryToDocument : String × Node → String × Document
  | (key, node) => (key, node.toDocument)
termination_by structural entry => entry

/-- The finished tables under one header. -/
def tablesToDocuments : List (List (String × Node)) → List Document
  | [] => []
  | entries :: rest => .table (entriesToDocuments entries) :: tablesToDocuments rest
termination_by structural items => items

end

/-- Changes what stands under a key, or adds it at the end. -/
def alter? (key : String) (f : Option Node → Option Node) :
    List (String × Node) → Option (List (String × Node))
  | [] => (f none).map fun node => [(key, node)]
  | (k, node) :: rest =>
    if k = key then (f (some node)).map fun node => (k, node) :: rest
    else (alter? key f rest).map ((k, node) :: ·)

/-- Changes the last of some tables. -/
def alterLast? (f : List (String × Node) → Option (List (String × Node))) :
    List (List (String × Node)) → Option (List (List (String × Node)))
  | [] => none
  | [entries] => (f entries).map ([·])
  | entries :: rest => (alterLast? f rest).map (entries :: ·)

/-- Puts a value under the last part of a key that is not in use. -/
def insertNew (key : String) (node : Node) (entries : List (String × Node)) :
    Option (List (String × Node)) :=
  alter? key (fun present => if present.isNone then some node else none) entries

/-- Puts a value under a key whose parts in front of the last one are `parts`. The tables on
the way must not have been written out, and the last of them must have been opened in the same
way. -/
def insertDotted (key : String) (node : Node) (dotted : Bool) :
    List String → List (String × Node) → Option (List (String × Node))
  | [], entries => if dotted then insertNew key node entries else none
  | part :: parts, entries =>
    alter? part
      (fun present =>
        match present with
        | none => (insertDotted key node true parts []).map (.table true true)
        | some (.table true dotted inner) =>
          (insertDotted key node dotted parts inner).map (.table true dotted)
        | some (.tables items) =>
          (alterLast? (insertDotted key node false parts) items).map .tables
        | _ => none)
      entries

/-- A value under a key with one or more parts. -/
structure Pair where
  parts : List String
  key : String
  node : Node

/-- Puts a value into a table. -/
def insertPair (p : Pair) (entries : List (String × Node)) : Option (List (String × Node)) :=
  match p.parts with
  | [] => insertNew p.key p.node entries
  | parts => insertDotted p.key p.node false parts entries

/-- Puts values into a table one after another. -/
def insertPairs (pairs : List Pair) (entries : List (String × Node)) :
    Option (List (String × Node)) :=
  pairs.foldlM (fun entries p => insertPair p entries) entries

/-- The table of the given values alone. -/
def tableOfPairs (pairs : List Pair) : Option Node :=
  (insertPairs pairs []).map (.table false false)

/-- A header: a table, or one more table in a row of them. -/
inductive Header where
  | table
  | row
  deriving DecidableEq

/-- A header with its key, and the values below it. -/
structure Section where
  header : Header
  parts : List String
  key : String
  pairs : List Pair

/-- Writes out the table of a section under the last part of its key. -/
def openTable (s : Section) (present : Option Node) : Option Node :=
  match s.header, present with
  | .table, none => (insertPairs s.pairs []).map (.table false false)
  | .table, some (.table true false entries) =>
    (insertPairs s.pairs entries).map (.table false false)
  | .row, none => (insertPairs s.pairs []).map fun entries => .tables [entries]
  | .row, some (.tables items) =>
    (insertPairs s.pairs []).map fun entries => .tables (items ++ [entries])
  | _, _ => none

/-- Goes down to the table of a section and writes it out. -/
def insertSection (s : Section) :
    List String → List (String × Node) → Option (List (String × Node))
  | [], entries => alter? s.key (openTable s) entries
  | part :: parts, entries =>
    alter? part
      (fun present =>
        match present with
        | none => (insertSection s parts []).map (.table true false)
        | some (.table implicit dotted inner) =>
          (insertSection s parts inner).map (.table implicit dotted)
        | some (.tables items) => (alterLast? (insertSection s parts) items).map .tables
        | some (.value _) => none)
      entries

/-- The document made of the values in front of the first header and of the sections. -/
def assemble (pairs : List Pair) (sections : List Section) : Option Document := do
  let root ← insertPairs pairs []
  let root ← sections.foldlM (fun root s => insertSection s s.parts root) root
  return .table (entriesToDocuments root)

end Toml

end Fieldwise
