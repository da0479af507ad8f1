import Fieldwise.Configuration.Overlay
import Fieldwise.Configuration.Setting
import Fieldwise.Decimal.Numeral
import Fieldwise.Document.Json.Reader
import Fieldwise.Document.Toml.Reader

/-!
# Layers of a configuration

A layer holds settings from one source: a data file, or the variables of the environment. Layers
are laid over each other from the weakest to the strongest.
-/

set_option autoImplicit false

namespace Fieldwise

/-- Settings by their keys. A key may be the path of a setting. -/
abbrev Layer := List (String × Document)

namespace Layer

/-! ## Files -/

/-- Whole numbers in files lie below this bound; greater ones are read as decimal numbers. -/
def wholeBound : Int := Int.pow 2 63

/-- How deep sequences and tables in JSON may be nested. -/
def nestingBound : Nat := 127

/-- A document that is at most `depth` levels deep and has a value throughout. Of several entries
under one key the last counts. -/
def distinct? : Nat → Document → Option Document
  | depth + 1, .sequence items => (items.mapM (distinct? depth)).map .sequence
  | depth + 1, .table entries =>
    (entries.mapM fun entry => (distinct? depth entry.2).map fun d => (entry.1, d)).map
      fun entries => .table (Keyed.ofList entries)
  | _, .integer n => some (if n < wholeBound then .integer n else .decimal (Float.ofInt n))
  | _, .sequence _ | _, .table _ | _, .broken => none
  | _, d => some d

/-- Reads a document that has a value throughout. -/
def read? : DataFormat → String → Option Document
  | .json, s => (Document.ofJson? s).bind (distinct? nestingBound)
  | .toml, s => Document.ofToml? s

/-- The settings in the text of a file. -/
def ofText? (format : DataFormat) (text : String) : Option Layer :=
  match read? format text with
  | some (.table entries) => some entries
  | _ => none

/-! ## Environment -/

/-- What the names of variables begin with, in any case. -/
def variableMark : List Char := "templates_checker__".toList

/-- The path in the name of a variable, whose parts two underscores set apart. -/
def variablePath : List Char → List Char
  | '_' :: '_' :: rest => '.' :: variablePath rest
  | c :: rest => c :: variablePath rest
  | [] => []

/-- The key of the setting that a variable holds, if it holds one. -/
def variableKey? (name : String) : Option String :=
  let cs := name.toList
  if variableMark = (cs.take variableMark.length).map Char.toLower then
    some (Text.lowercase (String.ofList (variablePath (cs.drop variableMark.length))))
  else none

/-- The value of a variable: a truth value or a number if it reads as one. -/
def variableValue (value : String) : Document :=
  let word := Text.lowercase value
  if word = "true" then .boolean true
  else if word = "false" then .boolean false
  else
    match Decimal.whole? value.toList, Decimal.number? value.toList with
    | some n, _ => .integer n
    | none, some x => .decimal x
    | none, none => .text value

/-- The settings in the environment. -/
def ofEnvironment (environment : List (String × String)) : Layer :=
  Keyed.ofList <| environment.filterMap fun (name, value) =>
    (variableKey? name).map fun key => (key, variableValue value)

/-- The settings of a layer laid over each other, each where its key leads to. -/
def settle (layer : Layer) : Document :=
  layer.foldl (fun d entry => d.lay entry.1 entry.2) (.table [])

/-- The settings of all layers, from the weakest to the strongest. Keys count as paths once more
when they are all in lower case. -/
def merge (layers : List Layer) : Document :=
  settle (settle layers.flatten).entries

end Layer

end Fieldwise
