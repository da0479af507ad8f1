/-!
# Sets of characters given by ranges of code points

A character property of the Unicode standard is a table of code point ranges beyond the
128 basic characters, which every property treats by a rule of its own.
-/

set_option autoImplicit false

namespace Fieldwise.Text

/-- Ranges of code points, both ends included. -/
abbrev CodeRanges := List (Nat × Nat)

/-- The code point of `c` lies in one of the ranges. -/
def CodeRanges.contains (ranges : CodeRanges) (c : Char) : Bool :=
  ranges.any fun range => range.1 ≤ c.toNat && c.toNat ≤ range.2

/-- One of the 128 basic characters. -/
def isBasic (c : Char) : Bool :=
  c.toNat < 128

end Fieldwise.Text
