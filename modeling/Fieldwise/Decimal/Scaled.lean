import Fieldwise.Decimal.Reading

/-!
# Scaled reading of decimal numbers

A quick reading of decimal numbers, which is not always the nearest one in double precision. The
leading digits are kept as long as they fit into 64 bits, and one multiplication or division by a
power of ten puts the point where it belongs. `Decimal.ofDigits` gives the nearest number.
-/

set_option autoImplicit false

namespace Fieldwise.Decimal

/-- Leading digits stay below this bound. -/
def leadingBound : Nat := Nat.pow 2 64

/-- Extends a number by digits until the next one would not fit, and counts those that do. -/
def takeLeading (n count : Nat) : List Char → Nat × Nat
  | [] => (n, count)
  | c :: cs =>
    let next := n * 10 + digitsValue [c]
    if next < leadingBound then takeLeading next (count + 1) cs else (n, count)

/-- The greatest power of ten in double precision. -/
def greatestPower : Nat := 308

/-- A power of ten, up to the greatest one. -/
def powerOfTen (power : Nat) : Float :=
  Float.ofScientific 1 false power

/-- A number times a power of ten. -/
def scaleUp (x : Float) (power : Nat) : Float :=
  if power ≤ greatestPower then x * powerOfTen power
  else if x == 0.0 then x
  else infinity

/-- A number divided by a power of ten, which takes several divisions if the power is beyond the
greatest one. -/
def scaleDown (x : Float) (power : Nat) : Float :=
  if power ≤ greatestPower then x / powerOfTen power
  else if x == 0.0 then x
  else scaleDown (x / powerOfTen greatestPower) (power - greatestPower)
termination_by power
decreasing_by simp only [greatestPower] at *; omega

/-- The number that digits before and behind the point stand for, times a power of ten. Digits that
do not fit are taken for zeros before the point and dropped behind it. -/
def ofLeading (negative : Bool) (whole fraction : List Char) (exponent : Int) : Float :=
  let (wholePart, wholeCount) := takeLeading 0 0 whole
  let (n, fractionCount) := takeLeading wholePart 0 fraction
  let power := exponent + (whole.length - wholeCount : Nat) - fractionCount
  let x := Float.ofScientific n false 0
  let magnitude := if power < 0 then scaleDown x power.natAbs else scaleUp x power.natAbs
  if negative then -magnitude else magnitude

end Fieldwise.Decimal
