import Fieldwise.Decimal.Reading
import Fieldwise.Text.Alphabetic
import Fieldwise.Text.Numeric
import Fieldwise.Text.Space
import Fieldwise.TypeExpr.Basic

/-!
# Reading type expressions

`TypeExpr.parse` reads the written form of a type. White space may stand around every part of
an expression. A length is a number below 2^64 and may have a plus sign.
-/

set_option autoImplicit false

namespace Fieldwise.TypeExpr

/-- One more than the greatest array length. -/
def lengthBound : Nat := Nat.pow 2 64

/-- A name: a letter or underscore, then letters, digits and the marks of package paths, with
no dot at the end. -/
def isTypeName : List Char → Bool
  | [] => false
  | c :: cs =>
    (Text.isAlphabetic c || c = '_') &&
      cs.all (fun c =>
        Text.isAlphabetic c || Text.isNumeric c || c = '_' || c = '.' || c = '/' || c = '-') &&
      (c :: cs).getLast? != some '.'

/-- Splits behind the bracket that closes an opened one; `depth` counts the brackets opened
since then. -/
def splitBracket : Nat → List Char → Option (List Char × List Char)
  | _, [] => none
  | 0, ']' :: rest => some ([], rest)
  | depth + 1, ']' :: rest => (splitBracket depth rest).map fun (a, b) => (']' :: a, b)
  | depth, '[' :: rest => (splitBracket (depth + 1) rest).map fun (a, b) => ('[' :: a, b)
  | depth, c :: rest => (splitBracket depth rest).map fun (a, b) => (c :: a, b)

/-- Splits at the first closing bracket. -/
def splitLength : List Char → Option (List Char × List Char)
  | [] => none
  | ']' :: rest => some ([], rest)
  | c :: rest => (splitLength rest).map fun (a, b) => (c :: a, b)

/-- Reads an array length. -/
def parseLength (cs : List Char) : Option Nat :=
  let digits :=
    match cs with
    | '+' :: rest => rest
    | _ => cs
  if !digits.isEmpty && digits.all Char.isDigit && Decimal.digitsValue digits < lengthBound then
    some (Decimal.digitsValue digits)
  else none

theorem length_splitBracket_lt {depth : Nat} {cs a b : List Char}
    (h : splitBracket depth cs = some (a, b)) : a.length + b.length < cs.length := by
  fun_induction splitBracket depth cs generalizing a b with
  | case1 => simp at h
  | case2 => cases h; simp
  | case3 _ _ ih =>
    simp only [Option.map_eq_some_iff, Prod.mk.injEq, Prod.exists] at h
    obtain ⟨_, _, hs, rfl, rfl⟩ := h
    have := ih hs
    simp only [List.length_cons]
    omega
  | case4 _ _ ih =>
    simp only [Option.map_eq_some_iff, Prod.mk.injEq, Prod.exists] at h
    obtain ⟨_, _, hs, rfl, rfl⟩ := h
    have := ih hs
    simp only [List.length_cons]
    omega
  | case5 _ _ _ _ _ _ ih =>
    simp only [Option.map_eq_some_iff, Prod.mk.injEq, Prod.exists] at h
    obtain ⟨_, _, hs, rfl, rfl⟩ := h
    have := ih hs
    simp only [List.length_cons]
    omega

theorem length_splitLength_lt {cs a b : List Char} (h : splitLength cs = some (a, b)) :
    a.length + b.length < cs.length := by
  fun_induction splitLength cs generalizing a b with
  | case1 => simp at h
  | case2 => cases h; simp
  | case3 _ _ _ ih =>
    simp only [Option.map_eq_some_iff, Prod.mk.injEq, Prod.exists] at h
    obtain ⟨_, _, hs, rfl, rfl⟩ := h
    have := ih hs
    simp only [List.length_cons]
    omega

/-! ## What is read next is shorter -/

theorem length_lt_of_trim {c : Char} {cs rest : List Char} (h : Text.trim cs = c :: rest) :
    rest.length < cs.length := by
  have := Text.length_trim_le cs
  rw [h] at this
  exact this

theorem length_lt_of_trim_slice {c d : Char} {cs rest : List Char}
    (h : Text.trim cs = c :: d :: rest) : rest.length < cs.length :=
  Nat.lt_of_succ_lt (length_lt_of_trim h)

theorem length_add_lt_of_trim_map {c₁ c₂ c₃ c₄ : Char} {cs rest k v : List Char}
    (h : Text.trim cs = c₁ :: c₂ :: c₃ :: c₄ :: rest) (hs : splitBracket 0 rest = some (k, v)) :
    k.length + v.length < cs.length := by
  have h1 := length_lt_of_trim h
  have h2 := length_splitBracket_lt hs
  simp only [List.length_cons] at h1
  omega

theorem length_key_lt {c₁ c₂ c₃ c₄ : Char} {cs rest k v : List Char}
    (h : Text.trim cs = c₁ :: c₂ :: c₃ :: c₄ :: rest) (hs : splitBracket 0 rest = some (k, v)) :
    k.length < cs.length :=
  Nat.lt_of_le_of_lt (Nat.le_add_right _ _) (length_add_lt_of_trim_map h hs)

theorem length_value_lt {c₁ c₂ c₃ c₄ : Char} {cs rest k v : List Char}
    (h : Text.trim cs = c₁ :: c₂ :: c₃ :: c₄ :: rest) (hs : splitBracket 0 rest = some (k, v)) :
    v.length < cs.length :=
  Nat.lt_of_le_of_lt (Nat.le_add_left _ _) (length_add_lt_of_trim_map h hs)

theorem length_item_lt {c : Char} {cs rest len item : List Char} (h : Text.trim cs = c :: rest)
    (hs : splitLength rest = some (len, item)) : item.length < cs.length := by
  have h1 := length_lt_of_trim h
  have h2 := length_splitLength_lt hs
  omega

/-- Reads a type expression with white space around it. -/
def parseChars (cs : List Char) : Except TypeExprFault TypeExpr :=
  match h : Text.trim cs with
  | [] => .error .missingType
  | '*' :: rest =>
    have := length_lt_of_trim h
    (parseChars rest).map pointer
  | '[' :: ']' :: rest =>
    have := length_lt_of_trim_slice h
    (parseChars rest).map slice
  | 'm' :: 'a' :: 'p' :: '[' :: rest =>
    match hs : splitBracket 0 rest with
    | none => .error .unclosedKey
    | some (k, v) =>
      have := length_key_lt h hs
      have := length_value_lt h hs
      match parseChars k with
      | .error e => .error e
      | .ok key => (parseChars v).map (map key)
  | '[' :: rest =>
    match hs : splitLength rest with
    | none => .error .unclosedLength
    | some (len, elem) =>
      have := length_item_lt h hs
      match parseLength (Text.trim len) with
      | none => .error .badLength
      | some length => (parseChars elem).map (array length)
  | name => if isTypeName name then .ok (named (String.ofList name)) else .error .badName
termination_by cs.length

/-- Reads a type expression. -/
def parse (s : String) : Except TypeExprFault TypeExpr :=
  parseChars s.toList

end Fieldwise.TypeExpr
