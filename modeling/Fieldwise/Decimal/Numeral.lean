import Fieldwise.Decimal.Reading

/-!
# Numerals

How numbers are written where nothing but a number stands: whole numbers of 64 bits with a sign,
and numbers with a point, an exponent or a name.
-/

set_option autoImplicit false

namespace Fieldwise.Decimal

/-- Splits off a sign; a negative one is `true`. -/
def splitSign : List Char → Bool × List Char
  | '-' :: rest => (true, rest)
  | '+' :: rest => (false, rest)
  | cs => (false, cs)

/-- Whole numbers lie below this bound, and not below its opposite. -/
def wholeBound : Int := Int.pow 2 63

/-- Reads a whole number. -/
def whole? (cs : List Char) : Option Int :=
  let (negative, digits) := splitSign cs
  let n := signedValue negative digits
  if !digits.isEmpty && digits.all Char.isDigit && -wholeBound ≤ n && n < wholeBound then some n
  else none

/-- Reads an exponent behind its letter, or none at the end. -/
def exponent? : List Char → Option Int
  | [] => some 0
  | c :: rest =>
    let (negative, digits) := splitSign rest
    if (c = 'e' || c = 'E') && !digits.isEmpty && digits.all Char.isDigit then
      some (signedValue negative digits)
    else none

/-- Splits off the digits behind a point, if there is one. -/
def splitFraction : List Char → List Char × List Char
  | '.' :: rest => (rest.takeWhile Char.isDigit, rest.dropWhile Char.isDigit)
  | cs => ([], cs)

/-- Reads a number without a sign; digits stand on at least one side of the point. -/
def unsigned? (negative : Bool) (cs : List Char) : Option Float :=
  let whole := cs.takeWhile Char.isDigit
  let (fraction, rest) := splitFraction (cs.dropWhile Char.isDigit)
  if whole.isEmpty && fraction.isEmpty then none
  else (exponent? rest).map (ofDigits negative whole fraction)

/-- Reads a number, or one of the names of infinity and of what is not a number. -/
def number? (cs : List Char) : Option Float :=
  let (negative, rest) := splitSign cs
  let name := String.ofList (rest.map Char.toLower)
  if name = "inf" || name = "infinity" then some (if negative then -infinity else infinity)
  else if name = "nan" then some notANumber
  else unsigned? negative rest

end Fieldwise.Decimal
