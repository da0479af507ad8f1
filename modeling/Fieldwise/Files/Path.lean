/-!
# Paths

A path names a file or directory by the names that lead to it, with slashes between them.
-/

set_option autoImplicit false

namespace Fieldwise.Path

/-- The path is not relative to the working directory. -/
def isAbsolute (path : String) : Bool :=
  path.startsWith "/"

/-- A path relative to a directory, seen from where the directory is seen. -/
def join (directory path : String) : String :=
  if isAbsolute path || directory = "" then path
  else if directory.endsWith "/" then directory ++ path
  else directory ++ "/" ++ path

/-- The path up to its last slash. -/
def directoryPart (path : String) : List Char :=
  (path.toList.reverse.dropWhile (· ≠ '/')).reverse

/-- The path without slashes at its end, unless it is nothing but slashes. -/
def withoutEndSlashes (path : String) : String :=
  match path.toList.reverse.dropWhile (· = '/') with
  | [] => path
  | part => String.ofList part.reverse

/-- The path, last character first, without the slashes and single dots that lead nowhere. -/
def dropEmptyHead : List Char → List Char
  | '/' :: rest => dropEmptyHead rest
  | '.' :: '/' :: rest => dropEmptyHead rest
  | path => path

/-- The path without the parts at its end that lead nowhere, unless it has no others. -/
def withoutEmptyEnd (path : String) : String :=
  match dropEmptyHead path.toList.reverse with
  | [] => path
  | part => String.ofList part.reverse

/-- The directory that a file lies in. -/
def parent (path : String) : String :=
  withoutEmptyEnd (String.ofList (directoryPart path))

/-- The path behind its last slash. -/
def fileName (path : String) : List Char :=
  (path.toList.reverse.takeWhile (· ≠ '/')).reverse

/-- What follows the last dot of the file name. A dot at the head of the name does not count. -/
def extension? (path : String) : Option String :=
  let name := (fileName path).reverse
  let ending := name.takeWhile (· ≠ '.')
  match name.drop ending.length with
  | '.' :: _ :: _ => if name = ['.', '.'] then none else some (String.ofList ending.reverse)
  | _ => none

end Fieldwise.Path
