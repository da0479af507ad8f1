/-!
# Similarity of names

The Jaro–Winkler similarity of two texts is a number from 0 to 1. It counts the characters
that the texts share at nearly the same place, takes something off for shared characters in
another order, and adds something for a common beginning.
-/

set_option autoImplicit false

namespace Fieldwise.Text

/-- Marks the first character equal to `c` that is not yet marked, among those of the list
`b`; `skip` characters are passed over and `width` characters looked at. -/
def claim (c : Char) : Nat → Nat → List (Char × Bool) → Option (List (Char × Bool))
  | _, _, [] => none
  | skip + 1, width, x :: b => (claim c skip width b).map (x :: ·)
  | 0, 0, _ :: _ => none
  | 0, width + 1, (d, taken) :: b =>
    if d = c && !taken then some ((d, true) :: b)
    else (claim c 0 width b).map ((d, taken) :: ·)

/-- Claims for each character of a text, from place `i` on, an equal one of the other text at
most `range` places away: the characters that found one, and the other text with its marks. -/
def shared (range : Nat) : Nat → List Char → List (Char × Bool) →
    List Char × List (Char × Bool)
  | _, [], b => ([], b)
  | i, c :: a, b =>
    match claim c (i - range) (min i range + range + 1) b with
    | some b => let (cs, b) := shared range (i + 1) a b; (c :: cs, b)
    | none => shared range (i + 1) a b

/-- How many places of two texts differ. -/
def differences : List Char → List Char → Nat
  | c :: a, d :: b => (if c = d then 0 else 1) + differences a b
  | _, _ => 0

/-- The Jaro similarity. -/
def jaro (a b : List Char) : Float :=
  if a.isEmpty && b.isEmpty then 1.0
  else
    let range := max a.length b.length / 2 - 1
    let (inA, marks) := shared range 0 a (b.map fun c => (c, false))
    let inB := (marks.filter Prod.snd).map Prod.fst
    let matching := inA.length
    if matching = 0 then 0.0
    else
      let swapped := differences inA inB / 2
      let m := Float.ofNat matching
      (m / Float.ofNat a.length + m / Float.ofNat b.length
        + (m - Float.ofNat swapped) / m) / 3.0

/-- The length of the common beginning. -/
def commonLead : List Char → List Char → Nat
  | c :: a, d :: b => if c = d then commonLead a b + 1 else 0
  | _, _ => 0

/-- The Jaro–Winkler similarity: of a common beginning up to four characters count. -/
def similarity (s t : String) : Float :=
  let a := s.toList
  let b := t.toList
  let sim := jaro a b
  if sim > 0.7 then sim + 0.1 * Float.ofNat (min 4 (commonLead a b)) * (1.0 - sim) else sim

end Fieldwise.Text
