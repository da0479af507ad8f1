import Fieldwise.Decimal.Numeral
import Fieldwise.Document.Basic
import Fieldwise.Keyed
import Fieldwise.Text.Lowercase
import Fieldwise.Text.Space

/-!
# Documents laid over each other

A table laid over another one adds its entries to it, and entries that are tables again are laid
over each other. Everything else takes the place of what was there. Keys are told apart by their
lower case, in which they are kept.

An entry can also be addressed by a path: a name, then further names behind dots and places in
sequences in square brackets, counted from the end if they are negative. What a path leads through
becomes a table or a sequence if it is not one yet.
-/

set_option autoImplicit false

namespace Fieldwise

namespace Document

/-- The entries of a table. -/
def entries : Document → List (String × Document)
  | table entries => entries
  | _ => []

/-- The items of a sequence. -/
def items : Document → List Document
  | sequence items => items
  | _ => []

mutual

/-- Entries with a document laid over the one under `key`, which is in lower case. -/
def layUnder (key : String) (lower : List (String × Document)) :
    Document → List (String × Document)
  | table upper => Keyed.put key (layAll ((lower.lookup key).getD (table [])) upper) lower
  | upper => Keyed.put key upper lower
termination_by structural upper => upper

/-- A document with entries laid over it, one after the other. -/
def layAll (lower : Document) : List (String × Document) → Document
  | [] => lower
  | entry :: rest => layAll (table (layEntry lower.entries entry)) rest
termination_by structural upper => upper

/-- Entries with another one laid over them. -/
def layEntry (lower : List (String × Document)) :
    String × Document → List (String × Document)
  | (key, upper) => layUnder (Text.lowercase key) lower upper
termination_by structural entry => entry

end

/-! ## Paths -/

/-- A step into a document. -/
inductive KeyStep where
  | name (key : String)
  | item (index : Int)
  deriving DecidableEq, Repr

/-- The step to the entry under a key. -/
def KeyStep.ofName (key : String) : KeyStep :=
  .name (Text.lowercase key)

/-- The place in a sequence of some length that an index stands for. -/
def placeOf (length : Nat) (index : Int) : Nat :=
  (if index < 0 then length + index else index).toNat

/-- Lays a document over what a path leads to. -/
def layAlong (upper : Document) : List KeyStep → Document → Document
  | [], _ => upper
  | [.name key], d => table (layUnder key d.entries upper)
  | .name key :: path, d =>
    table (Keyed.put key (layAlong upper path ((d.entries.lookup key).getD null)) d.entries)
  | .item index :: path, d =>
    let place := placeOf d.items.length index
    let items := d.items ++ List.replicate (place + 1 - d.items.length) null
    sequence (items.set place (layAlong upper path (items[place]?.getD null)))

/-- A character of a name in a path. -/
def isPathChar (c : Char) : Bool :=
  c.isAlphanum || c = ' ' || c = '_' || c = '-'

/-- A blank that may stand around an index. -/
def isIndexBlank (c : Char) : Bool :=
  c = ' ' || c = '\t'

/-- Reads an index between brackets: a whole number, perhaps with a minus sign. -/
def index? (cs : List Char) : Option Int :=
  let numeral := Text.dropWhileEnd isIndexBlank (cs.dropWhile isIndexBlank)
  if numeral.head? = some '+' then none else Decimal.whole? numeral

/-- Reads steps behind a name. The number bounds their count. -/
def readSteps : Nat → List Char → Option (List KeyStep)
  | _, [] => some []
  | 0, _ => none
  | steps + 1, '.' :: rest =>
    let name := rest.takeWhile isPathChar
    if name.isEmpty then none
    else
      (readSteps steps (rest.dropWhile isPathChar)).map
        (KeyStep.ofName (String.ofList name) :: ·)
  | steps + 1, '[' :: rest =>
    match rest.dropWhile (· ≠ ']') with
    | ']' :: behind => do
      let index ← index? (rest.takeWhile (· ≠ ']'))
      let path ← readSteps steps behind
      return .item index :: path
    | _ => none
  | _, _ => none

/-- The path that a key spells; a key that spells none is a single name. -/
def keyPath (key : String) : List KeyStep :=
  let cs := key.toList
  let path :=
    if cs.head?.any isPathChar then readSteps (cs.length + 1) ('.' :: cs) else none
  path.getD [KeyStep.ofName key]

/-- A document with another one laid over what a key leads to. -/
def lay (d : Document) (key : String) (upper : Document) : Document :=
  layAlong upper (keyPath key) d

end Document

end Fieldwise
