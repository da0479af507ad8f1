/-!
# Reading decimal numbers

The value of decimal digits with a power of ten is the nearest number in double precision.
Powers of ten far from all such numbers are told apart first, so that no huge number is
formed.
-/

set_option autoImplicit false

namespace Fieldwise.Decimal

/-- The value of decimal digits. -/
def digitsValue (cs : List Char) : Nat :=
  cs.foldl (fun n c => n * 10 + (c.toNat - 48)) 0

/-- Numbers of at least this power of ten are infinite, and numbers below its inverse zero. -/
def farPower : Int := 400

/-- The infinite number. -/
def infinity : Float := 1.0 / 0.0

/-- What is not a number. -/
def notANumber : Float := 0.0 / 0.0

/-- The nearest number to some digits, before and behind the point, times a power of ten. -/
def ofDigits (negative : Bool) (whole fraction : List Char) (exponent : Int) : Float :=
  let digits := (whole ++ fraction).dropWhile (· = '0')
  let power := exponent - fraction.length
  let size := power + digits.length
  let magnitude :=
    if digits.isEmpty then 0.0
    else if farPower < size then infinity
    else if size < -farPower then 0.0
    else Float.ofScientific (digitsValue digits) (power < 0) power.natAbs
  if negative then -magnitude else magnitude

/-- An exponent from its sign and digits. -/
def signedValue (negative : Bool) (digits : List Char) : Int :=
  let n : Int := digitsValue digits
  if negative then -n else n

end Fieldwise.Decimal
