/-!
# Documents

A document is the content of a data file, whichever notation it was written in: scalars,
sequences of documents, and tables of documents under text keys. A table keeps its keys in
the order of the file, and keeps each of several equal ones.
-/

set_option autoImplicit false

namespace Fieldwise

/-- The content of a data file or of a part of it. -/
inductive Document where
  | null
  | boolean (b : Bool)
  | integer (n : Int)
  | decimal (x : Float)
  | text (s : String)
  /-- A date, a time, or both, in their normal form. -/
  | moment (written : String)
  /-- Something well formed that denotes no value: text with a half of a character, or a number
  out of range. It may stand where nobody looks. -/
  | broken
  | sequence (items : List Document)
  | table (entries : List (String × Document))
  deriving Inhabited

/-- The notations of data files. -/
inductive DataFormat where
  | json
  | toml
  deriving DecidableEq, Repr

end Fieldwise
