/-!
# Access to files

What the program asks of the machine it runs on: to read a file and to write one. Either may
fail, and each fault has its wording.
-/

set_option autoImplicit false

namespace Fieldwise

/-- Why a file could not be read or written. -/
inductive FileFault where
  | missing
  | isDirectory
  | notDirectory
  | nameTooLong
  /-- The path holds the character that ends paths. -/
  | unnameable
  | notText
  | other (description : String)
  deriving DecidableEq, Repr

/-- The wording of a fault. -/
def FileFault.message : FileFault → String
  | missing => "No such file or directory (os error 2)"
  | isDirectory => "Is a directory (os error 21)"
  | notDirectory => "Not a directory (os error 20)"
  | nameTooLong => "File name too long (os error 36)"
  | unnameable => "file name contained an unexpected NUL byte"
  | notText => "stream did not contain valid UTF-8"
  | other description => description

/-- The greatest length of a name in a directory, in bytes. -/
def maxNameLength : Nat := 255

/-- The greatest length of a path, in bytes. -/
def maxPathLength : Nat := 4095

/-- The name fits into a directory. -/
def checkName (name : String) : Except FileFault Unit :=
  if maxNameLength < name.utf8ByteSize then .error .nameTooLong else .ok ()

/-- The path can be asked for, whatever it leads to. -/
def checkPath (path : String) : Except FileFault Unit :=
  if path.contains '\x00' then .error .unnameable
  else if maxPathLength < path.utf8ByteSize then .error .nameTooLong
  else if path = "" then .error .missing
  else .ok ()

/-- The text that bytes are the UTF-8 form of. -/
def textOfBytes (bytes : ByteArray) : Except FileFault String :=
  match String.fromUTF8? bytes with
  | some s => .ok s
  | none => .error .notText

/-- The files of a machine, by their paths from the working directory. -/
structure FileAccess (m : Type → Type) where
  read : String → m (Except FileFault ByteArray)
  write : String → String → m (Except FileFault Unit)

/-- Reads a file that holds a text. -/
def FileAccess.readText {m : Type → Type} [Monad m] (files : FileAccess m) (path : String) :
    m (Except FileFault String) := do
  return (← files.read path).bind textOfBytes

end Fieldwise
