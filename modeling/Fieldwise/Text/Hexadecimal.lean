/-!
# Hexadecimal numbers

Digits above nine are letters, which are read in either case.
-/

set_option autoImplicit false

namespace Fieldwise.Text

/-- The digit of a value below sixteen, letters in lower case. -/
def hexDigit (n : Nat) : Char :=
  if n < 10 then Char.ofNat (48 + n) else Char.ofNat (87 + n)

/-- The digit of a value below sixteen, letters in upper case. -/
def upperHexDigit (n : Nat) : Char :=
  if n < 10 then Char.ofNat (48 + n) else Char.ofNat (55 + n)

/-- Hexadecimal digits of `n`, without leading zeros, ahead of `tail`. -/
def hexDigitsAhead (n : Nat) (tail : List Char) : List Char :=
  if h : n < 16 then hexDigit n :: tail
  else hexDigitsAhead (n / 16) (hexDigit (n % 16) :: tail)
termination_by n
decreasing_by omega

/-- Hexadecimal digits of `n`, without leading zeros. -/
def hexDigits (n : Nat) : List Char :=
  hexDigitsAhead n []

/-- The value of a hexadecimal digit. -/
def hexValue? (c : Char) : Option Nat :=
  if '0' ≤ c && c ≤ '9' then some (c.toNat - 48)
  else if 'a' ≤ c && c ≤ 'f' then some (c.toNat - 87)
  else if 'A' ≤ c && c ≤ 'F' then some (c.toNat - 55)
  else none

end Fieldwise.Text
