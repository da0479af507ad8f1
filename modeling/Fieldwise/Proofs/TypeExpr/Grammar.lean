import Fieldwise.Proofs.Text.Space
import Fieldwise.TypeExpr.Parser

/-!
# The grammar of type expressions

* `IsTypeName`, `IsDigits`, `IsLength` : names, decimal numerals with their value, and lengths of
  arrays.
* `IsType`, `IsBareType` : what a text spells, with white space around it and without.
* `isTypeName_iff`, `parseLength_eq_some_iff` : the reader of names and that of lengths follow the
  grammar.
* `Balanced` : texts that close the brackets they open, and `IsType.balanced` : a text that spells a
  type is one of them. This is why the bracket behind a map key is found.
* `splitBracket_balanced`, `splitLength_append` : where the reader divides such a text.
-/

set_option autoImplicit false

namespace Fieldwise.TypeExpr

/-! ## The grammar -/

/-- A character that can stand in a name behind its first. -/
def IsNameChar (c : Char) : Prop :=
  Text.isAlphabetic c = true ∨ Text.isNumeric c = true ∨ c ∈ ['_', '.', '/', '-']

/-- A name: a letter or underscore first, then characters of names, and no dot at the end. -/
structure IsTypeName (name : List Char) : Prop where
  start : ∃ c rest, name = c :: rest ∧ (Text.isAlphabetic c = true ∨ c = '_')
  isNameChar : ∀ c ∈ name.tail, IsNameChar c
  last : name.getLast? ≠ some '.'

/-- A decimal numeral and its value. -/
inductive IsDigits : List Char → Nat → Prop
  | digit {c : Char} (hc : c.isDigit = true) : IsDigits [c] (c.toNat - '0'.toNat)
  | more {cs : List Char} {n : Nat} {c : Char} (h : IsDigits cs n) (hc : c.isDigit = true) :
    IsDigits (cs ++ [c]) (10 * n + (c.toNat - '0'.toNat))

/-- The length of an array: a numeral with a value below 2^64, perhaps behind a plus sign. -/
inductive IsLength : List Char → Nat → Prop
  | plain {cs : List Char} {n : Nat} (h : IsDigits cs n) (hn : n < lengthBound) : IsLength cs n
  | signed {cs : List Char} {n : Nat} (h : IsDigits cs n) (hn : n < lengthBound) : IsLength ('+' :: cs) n

mutual

/-- The text spells the type, perhaps with white space around it. -/
inductive IsType : List Char → TypeExpr → Prop
  | spaced {v cs w : List Char} {e : TypeExpr} (hv : Text.IsSpace v) (h : IsBareType cs e)
    (hw : Text.IsSpace w) : IsType (v ++ (cs ++ w)) e

/-- The text spells the type, beginning with the mark of its kind. -/
inductive IsBareType : List Char → TypeExpr → Prop
  | pointer {cs : List Char} {target : TypeExpr} (h : IsType cs target) :
    IsBareType ('*' :: cs) (pointer target)
  | slice {cs : List Char} {element : TypeExpr} (h : IsType cs element) :
    IsBareType ('[' :: ']' :: cs) (slice element)
  | map {ks vs : List Char} {key value : TypeExpr} (hk : IsType ks key) (hv : IsType vs value) :
    IsBareType ('m' :: 'a' :: 'p' :: '[' :: (ks ++ ']' :: vs)) (map key value)
  | array {v n w cs : List Char} {length : Nat} {element : TypeExpr} (hv : Text.IsSpace v)
    (hn : IsLength n length) (hw : Text.IsSpace w) (h : IsType cs element) :
    IsBareType ('[' :: (v ++ (n ++ w) ++ ']' :: cs)) (array length element)
  | named {name : List Char} (h : IsTypeName name) : IsBareType name (named (String.ofList name))

end

/-! ## Names -/

theorem IsTypeName.forall_isNameChar {name : List Char} (h : IsTypeName name) :
    ∀ c ∈ name, IsNameChar c := by
  obtain ⟨c, rest, rfl, hc⟩ := h.start
  refine List.forall_mem_cons.mpr ⟨?_, h.isNameChar⟩
  rcases hc with hc | rfl
  · exact .inl hc
  · exact .inr (.inr (by simp))

theorem IsNameChar.not_whiteSpace {c : Char} (h : IsNameChar c) : Text.isWhiteSpace c = false := by
  rcases h with h | h | h
  · exact Text.not_whiteSpace_of_isAlphabetic h
  · exact Text.not_whiteSpace_of_isNumeric h
  · simp only [List.mem_cons, List.not_mem_nil, or_false] at h
    rcases h with rfl | rfl | rfl | rfl <;> decide

/-- A basic character in a name is a letter, a digit or one of the four marks. -/
theorem IsNameChar.of_isBasic {c : Char} (h : IsNameChar c) (hbasic : Text.isBasic c = true) :
    c.isAlpha = true ∨ c.isDigit = true ∨ c ∈ ['_', '.', '/', '-'] := by
  unfold IsNameChar at h
  rwa [Text.isAlphabetic_of_isBasic hbasic, Text.isNumeric_of_isBasic hbasic] at h

theorem IsNameChar.ne_bracket {c : Char} (h : IsNameChar c) : c ≠ '[' ∧ c ≠ ']' ∧ c ≠ '*' := by
  refine ⟨?_, ?_, ?_⟩ <;>
  · rintro rfl
    have := h.of_isBasic (by decide)
    revert this
    decide

/-- **The test for names follows the grammar.** -/
theorem isTypeName_iff (name : List Char) : isTypeName name = true ↔ IsTypeName name := by
  constructor
  · intro h
    cases name with
    | nil => simp [isTypeName] at h
    | cons c rest =>
      simp only [isTypeName, Bool.and_eq_true, Bool.or_eq_true, decide_eq_true_eq,
        List.all_eq_true, bne_iff_ne] at h
      obtain ⟨⟨hc, hrest⟩, hlast⟩ := h
      refine ⟨⟨c, rest, rfl, hc⟩, fun d hd => ?_, hlast⟩
      simpa [IsNameChar, or_assoc] using hrest d hd
  · rintro ⟨⟨c, rest, rfl, hc⟩, hrest, hlast⟩
    simp only [isTypeName, Bool.and_eq_true, Bool.or_eq_true, decide_eq_true_eq,
      List.all_eq_true, bne_iff_ne]
    refine ⟨⟨hc, fun d hd => ?_⟩, hlast⟩
    simpa [IsNameChar, or_assoc] using hrest d hd

/-! ## Lengths -/

theorem digitsValue_concat (cs : List Char) (c : Char) :
    Decimal.digitsValue (cs ++ [c]) = 10 * Decimal.digitsValue cs + (c.toNat - '0'.toNat) := by
  simp [Decimal.digitsValue, Nat.mul_comm]

/-- A numeral is one or more digits, and its value is what reading them gives. -/
theorem isDigits_iff {cs : List Char} {n : Nat} :
    IsDigits cs n ↔
      cs ≠ [] ∧ (∀ c ∈ cs, c.isDigit = true) ∧ Decimal.digitsValue cs = n := by
  constructor
  · intro h
    induction h with
    | digit hc => simp [Decimal.digitsValue, hc]
    | more _ hc ih =>
      obtain ⟨-, hdigits, rfl⟩ := ih
      refine ⟨by simp, ?_, digitsValue_concat _ _⟩
      exact List.forall_mem_append.mpr ⟨hdigits, by simpa using hc⟩
  · rintro ⟨hne, hdigits, rfl⟩
    induction cs using List.reverseRecOn with
    | nil => exact absurd rfl hne
    | append_singleton cs c ih =>
      obtain ⟨hcs, hc⟩ := List.forall_mem_append.mp hdigits
      have hc : c.isDigit = true := hc c (by simp)
      rw [digitsValue_concat]
      by_cases hnil : cs = []
      · subst hnil
        simpa [Decimal.digitsValue] using IsDigits.digit hc
      · exact .more (ih hnil hcs) hc

theorem IsDigits.isDigit {cs : List Char} {n : Nat} (h : IsDigits cs n) :
    ∀ c ∈ cs, c.isDigit = true :=
  (isDigits_iff.mp h).2.1

theorem IsDigits.ne_plus {c : Char} {cs : List Char} {n : Nat} (h : IsDigits (c :: cs) n) :
    c ≠ '+' := by
  rintro rfl
  exact absurd (h.isDigit '+' List.mem_cons_self) (by decide)

/-- The text behind a plus sign, if there is one. -/
def unsigned : List Char → List Char
  | '+' :: rest => rest
  | cs => cs

theorem isLength_iff {cs : List Char} {n : Nat} :
    IsLength cs n ↔ IsDigits (unsigned cs) n ∧ n < lengthBound := by
  unfold unsigned
  constructor
  · rintro (⟨h, hn⟩ | ⟨h, hn⟩)
    · split
      · exact absurd rfl h.ne_plus
      · exact ⟨h, hn⟩
    · exact ⟨h, hn⟩
  · rintro ⟨h, hn⟩
    split at h
    · exact .signed h hn
    · exact .plain h hn

theorem parseLength_eq (cs : List Char) :
    parseLength cs =
      if !(unsigned cs).isEmpty && (unsigned cs).all Char.isDigit &&
        Decimal.digitsValue (unsigned cs) < lengthBound then
        some (Decimal.digitsValue (unsigned cs)) else none := by
  fun_cases unsigned cs with
  | case1 rest => rfl
  | case2 _ h =>
    rw [parseLength]
    exact h

/-- **The reader of lengths follows the grammar.** -/
theorem parseLength_eq_some_iff {cs : List Char} {n : Nat} :
    parseLength cs = some n ↔ IsLength cs n := by
  rw [isLength_iff, isDigits_iff, parseLength_eq]
  simp only [Bool.and_eq_true, Bool.not_eq_true', List.isEmpty_eq_false_iff, List.all_eq_true,
    decide_eq_true_eq, Option.ite_none_right_eq_some, Option.some.injEq]
  constructor
  · rintro ⟨⟨⟨hne, hdigits⟩, hlt⟩, rfl⟩
    exact ⟨⟨hne, hdigits, rfl⟩, hlt⟩
  · rintro ⟨⟨hne, hdigits, rfl⟩, hlt⟩
    exact ⟨⟨⟨hne, hdigits⟩, hlt⟩, rfl⟩

/-- A character of a length is its sign or a digit. -/
theorem IsLength.mem {cs : List Char} {n : Nat} (h : IsLength cs n) :
    ∀ c ∈ cs, c = '+' ∨ c.isDigit = true := by
  rcases h with ⟨h, -⟩ | ⟨h, -⟩
  · exact fun c hc => .inr (h.isDigit c hc)
  · exact List.forall_mem_cons.mpr ⟨.inl rfl, fun c hc => .inr (h.isDigit c hc)⟩

theorem IsLength.trim_eq {cs : List Char} {n : Nat} (h : IsLength cs n) : Text.trim cs = cs := by
  refine Text.trim_eq_self fun c hc => ?_
  rcases h.mem c hc with rfl | hdigit
  · decide
  · exact Text.not_whiteSpace_of_isDigit hdigit

/-! ## Brackets -/

/-- The text closes every bracket that it opens, and no other. -/
inductive Balanced : List Char → Prop
  | nil : Balanced []
  | char {c : Char} (hc : c ≠ '[' ∧ c ≠ ']') : Balanced [c]
  | nested {cs : List Char} (h : Balanced cs) : Balanced ('[' :: (cs ++ [']']))
  | append {cs ds : List Char} (h : Balanced cs) (h' : Balanced ds) : Balanced (cs ++ ds)

theorem balanced_of_forall {cs : List Char} (h : ∀ c ∈ cs, c ≠ '[' ∧ c ≠ ']') : Balanced cs := by
  induction cs with
  | nil => exact .nil
  | cons c cs ih =>
    obtain ⟨hc, hcs⟩ := List.forall_mem_cons.mp h
    exact .append (.char hc) (ih hcs)

/-- **The search for the closing bracket passes over a balanced text.** -/
theorem splitBracket_balanced {cs : List Char} (h : Balanced cs) :
    ∀ (depth : Nat) (rest : List Char), splitBracket depth (cs ++ rest) =
      (splitBracket depth rest).map fun (a, b) => (cs ++ a, b) := by
  induction h with
  | nil => simp
  | @char c hc =>
    intro depth rest
    rw [List.singleton_append]
    -- the last of the equations of the search, for a character that is no bracket
    rw [splitBracket]
    · rfl
    all_goals simp [hc]
  | nested _ ih =>
    intro depth rest
    rw [List.cons_append, List.append_assoc, splitBracket, ih, List.singleton_append, splitBracket]
    cases splitBracket depth rest <;> simp
  | append _ _ ih ih' =>
    intro depth rest
    rw [List.append_assoc, ih, ih']
    cases splitBracket depth rest <;> simp

/-- The bracket behind a balanced text is the one that closes the opened one. -/
theorem splitBracket_append {cs : List Char} (h : Balanced cs) (rest : List Char) :
    splitBracket 0 (cs ++ ']' :: rest) = some (cs, rest) := by
  simp [splitBracket_balanced h, splitBracket]

theorem eq_append_of_splitBracket {depth : Nat} {cs a b : List Char}
    (h : splitBracket depth cs = some (a, b)) : cs = a ++ ']' :: b := by
  fun_induction splitBracket depth cs generalizing a b with
  | case1 => simp at h
  | case2 => cases h; rfl
  | case3 _ _ ih | case4 _ _ ih | case5 _ _ _ _ _ _ ih =>
    simp only [Option.map_eq_some_iff, Prod.mk.injEq, Prod.exists] at h
    obtain ⟨_, _, hs, rfl, rfl⟩ := h
    exact congrArg _ (ih hs)

/-- The first closing bracket is found behind a text without one. -/
theorem splitLength_append {cs : List Char} (h : ∀ c ∈ cs, c ≠ ']') (rest : List Char) :
    splitLength (cs ++ ']' :: rest) = some (cs, rest) := by
  induction cs with
  | nil => rfl
  | cons c cs ih =>
    obtain ⟨hc, hcs⟩ := List.forall_mem_cons.mp h
    rw [List.cons_append, splitLength, ih hcs]
    · rfl
    · exact fun h => hc h

theorem eq_append_of_splitLength {cs a b : List Char} (h : splitLength cs = some (a, b)) :
    cs = a ++ ']' :: b := by
  fun_induction splitLength cs generalizing a b with
  | case1 => simp at h
  | case2 => cases h; rfl
  | case3 _ _ _ ih =>
    simp only [Option.map_eq_some_iff, Prod.mk.injEq, Prod.exists] at h
    obtain ⟨_, _, hs, rfl, rfl⟩ := h
    exact congrArg _ (ih hs)

theorem ne_bracket_of_isSpace {cs : List Char} (h : Text.IsSpace cs) :
    ∀ c ∈ cs, c ≠ '[' ∧ c ≠ ']' := by
  intro c hc
  constructor <;>
  · rintro rfl
    exact absurd (h _ hc) (by decide)

/-- No bracket stands in a length with white space around it. -/
theorem IsLength.ne_bracket {v cs w : List Char} {n : Nat} (h : IsLength cs n)
    (hv : Text.IsSpace v) (hw : Text.IsSpace w) : ∀ c ∈ v ++ (cs ++ w), c ≠ '[' ∧ c ≠ ']' := by
  refine List.forall_mem_append.mpr ⟨ne_bracket_of_isSpace hv, List.forall_mem_append.mpr
    ⟨fun c hc => ?_, ne_bracket_of_isSpace hw⟩⟩
  rcases h.mem c hc with rfl | hdigit
  · decide
  · constructor <;>
    · rintro rfl
      exact absurd hdigit (by decide)

mutual

/-- **A text that spells a type closes the brackets that it opens.** -/
theorem IsType.balanced {cs : List Char} {e : TypeExpr} : IsType cs e → Balanced cs
  | .spaced hv h hw =>
    .append (balanced_of_forall (ne_bracket_of_isSpace hv))
      (.append h.balanced (balanced_of_forall (ne_bracket_of_isSpace hw)))

/-- Nor does it depend on white space around the text. -/
theorem IsBareType.balanced {cs : List Char} {e : TypeExpr} : IsBareType cs e → Balanced cs
  | .pointer h => by
    have hmark : Balanced ['*'] := .char (by decide)
    exact hmark.append h.balanced
  | .slice h => by
    have hmark : Balanced ['[', ']'] := .nested .nil
    exact hmark.append h.balanced
  | @IsBareType.map ks vs _ _ hk hv => by
    have hkey : Balanced ('[' :: (ks ++ [']'])) := .nested hk.balanced
    have hmap : Balanced ['m', 'a', 'p'] := balanced_of_forall (by simp)
    simpa using (hmap.append hkey).append hv.balanced
  | @IsBareType.array v n w cs _ _ hv hn hw h => by
    have hlength : Balanced (v ++ (n ++ w)) := balanced_of_forall (hn.ne_bracket hv hw)
    simpa using (Balanced.nested hlength).append h.balanced
  | .named h =>
    balanced_of_forall fun c hc =>
      have hne := (h.forall_isNameChar c hc).ne_bracket
      ⟨hne.1, hne.2.1⟩

end

end Fieldwise.TypeExpr
