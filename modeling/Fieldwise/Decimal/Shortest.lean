/-!
# Shortest decimal text

A number in double precision is written with the fewest digits that read back as the same
number, and of several such numerals with the one nearest to it, the greater of two that are equally
near. All digits are written out: there is no exponent, and a whole number has no point.
-/

set_option autoImplicit false

namespace Fieldwise.Decimal

/-- A positive number `mantissa · 2 ^ exponent` together with the ends of the interval of
numbers that round to it, all in units of `2 ^ exponent`. -/
structure Rounding where
  low : Nat
  mantissa : Nat
  high : Nat
  exponent : Int
  /-- The ends of the interval round to the number as well. -/
  closed : Bool

/-- The number with the given exponent and mantissa bits. -/
def Rounding.ofBits (exponentBits mantissaBits : Nat) : Rounding :=
  if exponentBits = 0 then
    ⟨4 * mantissaBits - 2, 4 * mantissaBits, 4 * mantissaBits + 2, -1076, mantissaBits % 2 = 0⟩
  else
    let m := mantissaBits + Nat.pow 2 52
    let low := if mantissaBits = 0 && 1 < exponentBits then 4 * m - 1 else 4 * m - 2
    ⟨low, 4 * m, 4 * m + 2, exponentBits - 1077, m % 2 = 0⟩

namespace Rounding

/-- The factor on the binary side when the number is compared with multiples of `10 ^ power`. -/
def binaryFactor (r : Rounding) (power : Int) : Nat :=
  Nat.pow 2 r.exponent.toNat * Nat.pow 10 (-power).toNat

/-- The factor on the decimal side. -/
def decimalFactor (r : Rounding) (power : Int) : Nat :=
  Nat.pow 10 power.toNat * Nat.pow 2 (-r.exponent).toNat

/-- The multiple `digits · 10 ^ power` rounds to the number. -/
def holds (r : Rounding) (power : Int) (digits : Nat) : Bool :=
  let d := digits * r.decimalFactor power
  let low := r.low * r.binaryFactor power
  let high := r.high * r.binaryFactor power
  if r.closed then low ≤ d && d ≤ high else low < d && d < high

/-- The nearest multiple of `10 ^ power` that rounds to the number, if there is one; of two equally
near ones the greater. -/
def multiple? (r : Rounding) (power : Int) : Option Nat :=
  let value := r.mantissa * r.binaryFactor power
  let below := value / r.decimalFactor power
  let above := below + 1
  let belowIsNearer :=
    value - below * r.decimalFactor power < above * r.decimalFactor power - value
  match r.holds power below, r.holds power above with
  | true, true => some (if belowIsNearer then below else above)
  | true, false => some below
  | false, true => some above
  | false, false => none

/-- Goes down from a power of ten to the first with a multiple that rounds to the number. -/
def search (r : Rounding) : Nat → Int → Nat × Int
  | 0, power => (r.mantissa * r.binaryFactor power / r.decimalFactor power, power)
  | steps + 1, power =>
    match r.multiple? power with
    | some digits => (digits, power)
    | none => r.search steps (power - 1)

/-- A power of ten above the number. -/
def startPower (r : Rounding) : Int :=
  ((r.mantissa.log2 + 1 : Nat) + r.exponent) * 30103 / 100000 + 1

/-- The digits of the number and the power of ten that they are multiplied with. -/
def shortest (r : Rounding) : Nat × Int :=
  r.search 20 r.startPower

end Rounding

/-- Digits with a power of ten, written out. -/
def positional (digits : Nat) (power : Int) : String :=
  let ds := Nat.toDigits 10 digits
  if 0 ≤ power then String.ofList (ds ++ List.replicate power.toNat '0')
  else
    let places := power.natAbs
    let padded := List.replicate (places + 1 - ds.length) '0' ++ ds
    let whole := padded.length - places
    String.ofList (padded.take whole ++ '.' :: padded.drop whole)

/-- The text of a number. -/
def render (x : Float) : String :=
  let bits := x.toBits.toNat
  let sign := if bits / Nat.pow 2 63 = 1 then "-" else ""
  let exponentBits := bits / Nat.pow 2 52 % Nat.pow 2 11
  let mantissaBits := bits % Nat.pow 2 52
  if exponentBits = 2047 then
    if mantissaBits = 0 then sign ++ "inf" else "NaN"
  else if exponentBits = 0 && mantissaBits = 0 then sign ++ "0"
  else
    let (digits, power) := (Rounding.ofBits exponentBits mantissaBits).shortest
    sign ++ positional digits power

end Fieldwise.Decimal
