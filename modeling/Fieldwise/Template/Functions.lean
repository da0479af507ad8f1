/-!
# Functions a template may call

Calls are accepted by name only: which fields a template uses does not depend on what its
functions do.
-/

set_option autoImplicit false

namespace Fieldwise

/-- Helpers that the rendering program adds to the language. -/
def helperFunctions : List String :=
  ["Year", "Now", "Join", "valueOrEmptySlice"]

/-- Functions of the template language itself. -/
def builtinFunctions : List String :=
  ["and", "call", "html", "index", "slice", "js", "len", "not", "or", "print", "printf",
    "println", "urlquery", "eq", "ge", "gt", "le", "lt", "ne"]

/-- Every function a template may call, helpers first. -/
def functionNames : List String :=
  helperFunctions ++ builtinFunctions

/-- Helpers that hand their argument back unchanged, so that a range may go over their call. -/
def passthroughFunctions : List String :=
  ["valueOrEmptySlice"]

/-- The function that picks one element: `index` with a field and a whole number. -/
def indexFunction : String := "index"

/-- A function that a template may call. -/
def isFunction (name : String) : Bool :=
  functionNames.contains name

/-- A function that hands its argument back unchanged. -/
def isPassthrough (name : String) : Bool :=
  passthroughFunctions.contains name

end Fieldwise
