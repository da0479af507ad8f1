import Fieldwise.CallTree.Format
import Fieldwise.CallTree.Outline
import Fieldwise.Catalog.Load
import Fieldwise.Catalog.Members
import Fieldwise.CommandLine.Invocation
import Fieldwise.Configuration.Load

/-!
# Running a command

A run reads files, perhaps writes one, and ends with an exit code and with what it prints. The
code is 0 if all went well, 1 if a check found something or could not be made, and 2 if the
command line asks for nothing.
-/

set_option autoImplicit false

namespace Fieldwise

/-- How a run ends. -/
structure RunResult where
  exitCode : UInt32
  output : String
  errors : String
  deriving DecidableEq, Repr

/-- Why a run could not do what it was asked for. -/
inductive RunFault where
  | configuration
  | catalog (path : String) (cause : CheckError)
  | manifest (path : String) (cause : CheckError)
  | unreadable (path : String) (cause : FileFault)
  | unwritable (path : String) (cause : FileFault)
  | check (cause : CheckError)
  | noMembers (type : TypeExpr) (cause : NoMembers)
  deriving DecidableEq, Repr

namespace RunFault

/-- The wording of a fault, followed by that of its causes. -/
def chain : RunFault → List String
  | configuration => ["failed to load configuration", CheckError.malformedText]
  | catalog path cause => ("failed to load type catalog " ++ path) :: cause.chain
  | manifest path cause => ("failed to load manifest " ++ path) :: cause.chain
  | unreadable path cause => ["failed to read " ++ path, cause.message]
  | unwritable path cause => ["failed to write " ++ path, cause.message]
  | check cause => cause.chain
  | noMembers type cause => [cause.message type]

/-- The fault in one line. -/
def message (fault : RunFault) : String :=
  "Error: " ++ ": ".intercalate fault.chain ++ "\n"

end RunFault

namespace RunResult

/-- A run that printed something and went well. -/
def ofOutput (output : String) : RunResult := ⟨0, output, ""⟩

/-- A run that could not do what it was asked for. -/
def ofFault (fault : RunFault) : RunResult := ⟨1, "", fault.message⟩

/-- A run that was not asked for anything sensible. -/
def ofUsage (fault : UsageFault) : RunResult := ⟨2, "", "error: " ++ fault.message ++ "\n"⟩

/-- A run that checked a manifest. -/
def ofReport (format : ReportFormat) (report : BatchReport) : RunResult :=
  let output :=
    match format with
    | .text => report.toText
    | .json => report.toJson ++ "\n"
  ⟨if report.isSuccess then 0 else 1, output, ""⟩

/-- A run that built a call tree. -/
def ofTree (json : Bool) (t : CallTree) : RunResult :=
  ofOutput <|
    if json then t.toDocument.toPrettyJson ++ "\n"
    else if t.isLeaf then "(no field access)\n"
    else t.outline

/-- A run that found the members of a type. -/
def ofMembers (type : TypeExpr) (fields : FieldSet) : RunResult :=
  let title := "📋 " ++ type.render ++ " (" ++ toString fields.entries.length ++ " fields)\n"
  let lines := fields.entries.map fun (name, type) => "  " ++ name ++ ": " ++ type.render ++ "\n"
  ofOutput (title ++ String.join lines)

/-- The result of a run, whichever way it ended. -/
def ofExcept : Except RunFault RunResult → RunResult
  | .ok result => result
  | .error fault => ofFault fault

end RunResult

/-- The configuration with what a command sets in place of it. -/
def Configuration.override (c : Configuration) (catalog manifest : Option String)
    (format : Option ReportFormat) (failFast noSuggestions : Bool) : Configuration where
  catalog := catalog.getD c.catalog
  manifest := manifest.getD c.manifest
  failFast := c.failFast || failFast
  suggestions := c.suggestions && !noSuggestions
  format := format.getD c.format

namespace Request

variable {m : Type → Type} [Monad m]

/-- A step of a run, with the faults of the step as faults of the run. -/
def step {ε α : Type} (ofCause : ε → RunFault) (action : m (Except ε α)) :
    ExceptT RunFault m α :=
  ExceptT.mk do return (← action).mapError ofCause

/-- Checks the manifest of a configuration. -/
def runCheck (files : FileAccess m) (c : Configuration) : ExceptT RunFault m RunResult := do
  let catalog ← step (.catalog c.catalog) (Catalog.load files c.catalog)
  let manifest ← step (.manifest c.manifest) (Manifest.load files c.manifest)
  let read ← ExceptT.lift (manifest.readTexts files)
  let report ← step .check (pure (manifest.check catalog c.options read))
  return .ofReport c.format report

/-- The text of the template to build a tree for. -/
def readTemplate (files : FileAccess m) : TemplateOrigin → ExceptT RunFault m String
  | .inline text => pure text
  | .file path => step (.unreadable path) (files.readText path)

/-- Builds and prints a call tree. -/
def runTree (files : FileAccess m) (origin : TemplateOrigin) (json : Bool) :
    ExceptT RunFault m RunResult := do
  let source ← readTemplate files origin
  let t ← step (fun e => .check (.template e)) (pure (CallTree.ofSource source))
  return .ofTree json t

/-- Lists the members of a type. -/
def runFields (files : FileAccess m) (catalogPath text : String) :
    ExceptT RunFault m RunResult := do
  let catalog ← step (.catalog catalogPath) (Catalog.load files catalogPath)
  let type ← step .check (pure (TypeExpr.ofText text))
  let fields ← step (.noMembers type) (pure (catalog.members type))
  return .ofMembers type fields

/-- Prints a configuration or saves it. -/
def runConfiguration (files : FileAccess m) (c : Configuration) :
    Option String → ExceptT RunFault m RunResult
  | none => return .ofOutput (c.toToml ++ "\n")
  | some path => do
    step (.unwritable path) (files.write path c.toToml)
    return .ofOutput ("✅ Configuration saved to " ++ path ++ "\n")

/-- Runs a command with a configuration. -/
def run (files : FileAccess m) (c : Configuration) : Request → ExceptT RunFault m RunResult
  | .check catalog manifest format failFast noSuggestions =>
    runCheck files (c.override catalog manifest format failFast noSuggestions)
  | .tree origin json => runTree files origin json
  | .fields type catalog => runFields files (catalog.getD c.catalog) type
  | .configuration save => runConfiguration files c save

end Request

/-- Loads the configuration and runs a command. -/
def Invocation.run {m : Type → Type} [Monad m] (files : FileAccess m)
    (environment : List (String × String)) (invocation : Invocation) :
    ExceptT RunFault m RunResult := do
  match ← ExceptT.lift (Configuration.load files environment invocation.settings) with
  | none => throw .configuration
  | some c => invocation.request.run files c

/-- Runs a command line. -/
def runCommandLine {m : Type → Type} [Monad m] (files : FileAccess m)
    (environment : List (String × String)) (arguments : List String) : m RunResult := do
  match Invocation.ofArguments arguments with
  | .error fault => return .ofUsage fault
  | .ok invocation => return .ofExcept (← (invocation.run files environment).run)

end Fieldwise
