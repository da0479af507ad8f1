import Fieldwise.Text.CodeRange

/-!
# White space

The Unicode property White_Space, and the removal of white space at both ends of a text.
-/

set_option autoImplicit false

namespace Fieldwise.Text

/-- White space beyond the basic characters. -/
def whiteSpaceRanges : CodeRanges :=
  [(0x85, 0x85), (0xA0, 0xA0), (0x1680, 0x1680), (0x2000, 0x200A), (0x2028, 0x2029),
   (0x202F, 0x202F), (0x205F, 0x205F), (0x3000, 0x3000)]

/-- A character with the property White_Space. -/
def isWhiteSpace (c : Char) : Bool :=
  if isBasic c then c.toNat == 32 || (9 ≤ c.toNat && c.toNat ≤ 13)
  else whiteSpaceRanges.contains c

/-- The characters of a text without those at its end that satisfy `p`. -/
def dropWhileEnd (p : Char → Bool) : List Char → List Char
  | [] => []
  | c :: cs =>
    match dropWhileEnd p cs with
    | [] => if p c then [] else [c]
    | kept => c :: kept

theorem length_dropWhileEnd_le (p : Char → Bool) (cs : List Char) :
    (dropWhileEnd p cs).length ≤ cs.length := by
  induction cs with
  | nil => simp [dropWhileEnd]
  | cons c cs ih =>
    simp only [dropWhileEnd]
    split
    · split <;> simp
    · next h => simp only [List.length_cons]; omega

/-- A text without the white space at its two ends. -/
def trim (cs : List Char) : List Char :=
  dropWhileEnd isWhiteSpace (cs.dropWhile isWhiteSpace)

theorem length_trim_le (cs : List Char) : (trim cs).length ≤ cs.length :=
  Nat.le_trans (length_dropWhileEnd_le _ _) (List.dropWhile_sublist _).length_le

end Fieldwise.Text
