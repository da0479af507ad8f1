import Fieldwise.CommandLine.Run

/-!
# The program

The command line on a real machine: files are those of the machine, the environment is that of
the process.
-/

set_option autoImplicit false

namespace Fieldwise

/-- The fault that an error of the machine stands for. -/
def FileFault.ofError : IO.Error → FileFault
  | .noFileOrDirectory .. => missing
  | .inappropriateType _ 21 _ => isDirectory
  | .inappropriateType .. => notDirectory
  | .invalidArgument _ _ "name too long" => nameTooLong
  | e => other (toString e)

/-- Runs an action at a path, which may fail. -/
def attempt {α : Type} (path : String) (action : IO α) : IO (Except FileFault α) := do
  match checkPath path with
  | .error fault => return .error fault
  | .ok () =>
    try
      return .ok (← action)
    catch e =>
      return .error (.ofError e)

/-- Access to the files of the machine. -/
def machineFiles : FileAccess IO where
  read path := attempt path (IO.FS.readBinFile path)
  write path text := attempt path (IO.FS.writeFile path text)

/-- Where the machine tells the environment of the process. -/
def environmentFile : String := "/proc/self/environ"

/-- A variable of the environment, whose name ends at the first equals sign. -/
def variableOf (entry : String) : String × String :=
  let cs := entry.toList
  (String.ofList (cs.takeWhile (· ≠ '=')), String.ofList ((cs.dropWhile (· ≠ '=')).drop 1))

/-- The environment of the process. -/
def machineEnvironment : IO (List (String × String)) := do
  match ← machineFiles.readText environmentFile with
  | .ok content =>
    return (content.splitOn "\x00").filterMap fun entry =>
      if entry.isEmpty then none else some (variableOf entry)
  | .error _ => return []

end Fieldwise

/-- Runs the program. -/
def main (arguments : List String) : IO UInt32 := do
  let environment ← Fieldwise.machineEnvironment
  let result ← Fieldwise.runCommandLine Fieldwise.machineFiles environment arguments
  IO.print result.output
  IO.eprint result.errors
  return result.exitCode
