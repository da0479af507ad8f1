import Fieldwise.CommandLine.Arguments
import Fieldwise.Configuration.Basic

/-!
# What a command line asks for

The program has four commands: to check a manifest, to print the call tree of a template, to list
the members of a type, and to print or save the configuration. A file of settings can be given
in front of the command or among its options, where it counts more.
-/

set_option autoImplicit false

namespace Fieldwise

/-- What a command line asks for. -/
inductive Request where
  | check (catalog manifest : Option String) (format : Option ReportFormat)
      (failFast noSuggestions : Bool)
  | tree (origin : TemplateOrigin) (json : Bool)
  | fields (type : String) (catalog : Option String)
  | configuration (save : Option String)
  deriving DecidableEq, Repr

/-- A command and the file of settings to run it with. -/
structure Invocation where
  settings : Option String
  request : Request
  deriving DecidableEq, Repr

namespace Request

/-- The option that gives a file of settings. -/
def settingsOption : OptionSpec := ⟨"config", some 'c', true⟩

/-- A command while its arguments are read: its name, its own options, and what it makes of its
arguments. -/
structure Spec where
  name : String
  options : List OptionSpec
  ofArguments : Arguments → Except UsageFault Request

/-- The form of reports that an option asks for. -/
def format? (a : Arguments) : Except UsageFault (Option ReportFormat) :=
  match a.value? "format" with
  | none => .ok none
  | some "text" => .ok (some .text)
  | some "json" => .ok (some .json)
  | some value => .error (.badValue "format" value)

/-- Checks the templates of a manifest. -/
def checkSpec : Spec where
  name := "check"
  options :=
    [⟨"catalog", none, true⟩, ⟨"manifest", some 'm', true⟩, ⟨"format", some 'f', true⟩,
      ⟨"fail-fast", none, false⟩, ⟨"no-suggestions", none, false⟩]
  ofArguments a := do
    a.expectOperands 0
    let catalog ← a.path? "catalog"
    let manifest ← a.path? "manifest"
    let format ← format? a
    return .check catalog manifest format (a.has "fail-fast") (a.has "no-suggestions")

/-- The template that is given in a file or as an argument, but not as both. -/
def templateOrigin (a : Arguments) : Except UsageFault TemplateOrigin :=
  match a.operands, a.value? "inline" with
  | [], none => .error (.missingOperand "file")
  | [], some text => .ok (.inline text)
  | "" :: _, _ => .error (.missingOperand "file")
  | path :: _, none => .ok (.file path)
  | _ :: _, some _ => .error (.conflict "file" "--inline")

/-- Prints the call tree of a template. -/
def treeSpec : Spec where
  name := "tree"
  options := [⟨"inline", some 'i', true⟩, ⟨"json", none, false⟩]
  ofArguments a := do
    a.expectOperands 1
    let origin ← templateOrigin a
    return .tree origin (a.has "json")

/-- Lists the members of a type. -/
def fieldsSpec : Spec where
  name := "fields"
  options := [⟨"catalog", none, true⟩]
  ofArguments a := do
    a.expectOperands 1
    let catalog ← a.path? "catalog"
    match a.operands with
    | [] => .error (.missingOperand "type")
    | type :: _ => return .fields type catalog

/-- Prints or saves the configuration. -/
def configurationSpec : Spec where
  name := "config"
  options := [⟨"save", none, true⟩]
  ofArguments a := do
    a.expectOperands 0
    let save ← a.path? "save"
    return .configuration save

/-- All commands. -/
def specs : List Spec := [checkSpec, treeSpec, fieldsSpec, configurationSpec]

end Request

namespace Invocation

/-- The argument names a command. -/
def isCommand (argument : String) : Bool :=
  Request.specs.any (·.name = argument)

/-- Reads a command line. -/
def ofArguments (arguments : List String) : Except UsageFault Invocation := do
  let (shared, rest) ← ({} : Arguments).read [Request.settingsOption] isCommand arguments
  shared.expectOperands 0
  match rest with
  | [] => .error .missingCommand
  | name :: rest =>
    match Request.specs.find? (·.name = name) with
    | none => .error .missingCommand
    | some spec =>
      let (own, _) ←
        ({} : Arguments).read (Request.settingsOption :: spec.options) (fun _ => false) rest
      let outer ← shared.path? "config"
      let inner ← own.path? "config"
      let request ← spec.ofArguments own
      return ⟨inner <|> outer, request⟩

end Invocation

end Fieldwise
