/-!
# Arguments of a command

A command has options and operands. An option has a name behind two dashes and perhaps a letter
behind one; its value, if it takes one, follows as the next argument, behind an equals sign, or
directly behind the letter. Two dashes alone end the options. No option is given twice.
-/

set_option autoImplicit false

namespace Fieldwise

/-- An option of a command. -/
structure OptionSpec where
  name : String
  letter : Option Char := none
  takesValue : Bool := true
  deriving DecidableEq, Repr

/-- What is wrong with a command line. -/
inductive UsageFault where
  | unknownArgument (argument : String)
  | missingValue (name : String)
  | unwantedValue (name : String)
  | repeated (name : String)
  | badValue (name value : String)
  | missingCommand
  | missingOperand (name : String)
  | conflict (first second : String)
  deriving DecidableEq, Repr

/-- The wording of a fault. -/
def UsageFault.message : UsageFault → String
  | unknownArgument argument => "unexpected argument '" ++ argument ++ "'"
  | missingValue name => "option '--" ++ name ++ "' needs a value"
  | unwantedValue name => "option '--" ++ name ++ "' takes no value"
  | repeated name => "option '--" ++ name ++ "' is given more than once"
  | badValue name value => "'" ++ value ++ "' is no value for '" ++ name ++ "'"
  | missingCommand => "a command is needed: check, tree, fields or config"
  | missingOperand name => "'" ++ name ++ "' is needed"
  | conflict first second => "'" ++ first ++ "' cannot be used with '" ++ second ++ "'"

/-- The options and operands of a command. -/
structure Arguments where
  /-- The options that were given, each with its value. -/
  options : List (String × String) := []
  operands : List String := []
  deriving DecidableEq, Repr

/-- The form of one argument. -/
inductive ArgumentForm where
  | endOfOptions
  | long (name : String) (value : Option String)
  | short (letter : Char) (value : Option String)
  | operand
  deriving DecidableEq, Repr

/-- The value behind a letter, with an equals sign or without. -/
def letterValue : List Char → Option String
  | [] => none
  | '=' :: rest => some (String.ofList rest)
  | rest => some (String.ofList rest)

/-- The form of an argument. One dash alone is an operand. -/
def ArgumentForm.of (argument : String) : ArgumentForm :=
  match argument.toList with
  | ['-', '-'] => endOfOptions
  | '-' :: '-' :: rest =>
    let name := rest.takeWhile (· ≠ '=')
    let value :=
      match rest.dropWhile (· ≠ '=') with
      | [] => none
      | _ :: value => some (String.ofList value)
    long (String.ofList name) value
  | '-' :: letter :: rest => short letter (letterValue rest)
  | _ => operand

namespace Arguments

/-- The value of an option. -/
def value? (a : Arguments) (name : String) : Option String :=
  a.options.lookup name

/-- The option was given. -/
def has (a : Arguments) (name : String) : Bool :=
  (a.value? name).isSome

/-- Adds an option. -/
def give (a : Arguments) (name value : String) : Except UsageFault Arguments :=
  if a.has name then .error (.repeated name)
  else .ok { a with options := a.options ++ [(name, value)] }

/-- The option that an argument names, and the value given with it. -/
def option? (specs : List OptionSpec) : ArgumentForm → Option (OptionSpec × Option String)
  | .long name value => (specs.find? (·.name = name)).map (·, value)
  | .short letter value => (specs.find? (·.letter = some letter)).map (·, value)
  | _ => none

/-- Reads arguments up to the first that `stop` holds for, and gives back those that follow. -/
def read (specs : List OptionSpec) (stop : String → Bool) (a : Arguments) :
    List String → Except UsageFault (Arguments × List String)
  | [] => .ok (a, [])
  | argument :: rest =>
    if stop argument then .ok (a, argument :: rest)
    else
      match ArgumentForm.of argument with
      | .endOfOptions => .ok ({ a with operands := a.operands ++ rest }, [])
      | .operand => read specs stop { a with operands := a.operands ++ [argument] } rest
      | form =>
        match option? specs form with
        | none => .error (.unknownArgument argument)
        | some (spec, some value) =>
          if spec.takesValue then
            match a.give spec.name value with
            | .error fault => .error fault
            | .ok a => read specs stop a rest
          else .error (.unwantedValue spec.name)
        | some (spec, none) =>
          if spec.takesValue then
            match rest with
            | [] => .error (.missingValue spec.name)
            | value :: rest =>
              if ArgumentForm.of value = .operand then
                match a.give spec.name value with
                | .error fault => .error fault
                | .ok a => read specs stop a rest
              else .error (.missingValue spec.name)
          else
            match a.give spec.name "" with
            | .error fault => .error fault
            | .ok a => read specs stop a rest

/-- The path that an option gives, which must not be empty. -/
def path? (a : Arguments) (name : String) : Except UsageFault (Option String) :=
  match a.value? name with
  | some "" => .error (.missingValue name)
  | value => .ok value

/-- There are no operands behind the first `count`. -/
def expectOperands (a : Arguments) (count : Nat) : Except UsageFault Unit :=
  match a.operands.drop count with
  | [] => .ok ()
  | operand :: _ => .error (.unknownArgument operand)

end Arguments

end Fieldwise
