import Fieldwise.CallTree.Build
import Fieldwise.Proofs.Outcome
import Fieldwise.Proofs.Template.Spelling
import Fieldwise.Proofs.Text.Languages

/-!
# What is taken for a number

The reader of numbers goes forward part by part and looks for a digit at the end. Here stands
which words it takes, as languages over the alphabet of characters.

* `numberWords` : what is written like a number. `Lexeme.takesLongest_takeNumber` says that the
  reader takes the longest such word, although each part is taken without regard to the next.
* `literals` : the numbers of the notation, whose digits stand where they are needed and are digits
  of the base; `unfinished` : words where they do not or are not.
* `mem_literals_iff` : a word with a digit is one or the other.
* `Scan.numbers_let_through` : the words that are let through, and how the others are refused.

Every literal is let through. But any digit is enough for a word to be let through, and the zero
before the letter of a base is one, so that words without a value are let through too.
-/

set_option autoImplicit false

namespace Fieldwise

open Lexeme

variable {A B : Language Char} {p : Char → Bool} {w u cs : List Char} {c : Char}

/-! ## The notation of numbers -/

/-- The letter of an exponent. -/
def isExponentMark (c : Char) : Bool :=
  c = 'e' || c = 'E'

/-- A hexadecimal digit, or the underscore that groups digits. -/
def isHexDigitOrBar (c : Char) : Bool :=
  c = '_' || isHexDigit c

/-- The base that its letter announces. -/
def baseOf (mark : Char) : Nat :=
  if mark = 'x' || mark = 'X' then 16 else if mark = 'o' || mark = 'O' then 8 else 2

/-- A digit of a base up to sixteen. -/
def isDigitOf (base : Nat) (c : Char) : Bool :=
  (Text.hexValue? c).any (· < base)

/-- A zero, the letter of a base, and the digits that may stand behind this letter. -/
def based (digits : Char → Language Char) : Language Char :=
  {w | ∃ mark ds, isBaseMark mark = true ∧ ds ∈ digits mark ∧ w = '0' :: mark :: ds}

/-- A point and digits, or nothing. -/
def fraction : Language Char :=
  1 + oneOf (· = '.') * manyOf isDigitOrBar

/-- Digits, perhaps around or beside a point. -/
def fixedPoint : Language Char :=
  manyOf isDigitOrBar * fraction

/-- An exponent, perhaps with a sign. -/
def exponent (digits : Language Char) : Language Char :=
  oneOf isExponentMark * ((1 + oneOf isSign) * digits)

/-- A magnitude, perhaps between a sign and the letter of an imaginary number. -/
def signed (magnitude : Language Char) : Language Char :=
  (1 + oneOf isSign) * (magnitude * (1 + oneOf (· = 'i')))

/-- Words in another base than ten. The digits are those of base sixteen, and there may be none. -/
def basedWords : Language Char :=
  based fun _ => manyOf isHexDigitOrBar

/-- Words in base ten, in which there may be no digit. -/
def decimalWords : Language Char :=
  fixedPoint * (1 + exponent (manyOf Char.isDigit))

/-- What is written like a number. -/
def numberWords : Language Char :=
  signed (basedWords + decimalWords)

/-- Digits of a base, of which there is one at least. -/
def digitsOf (base : Nat) : Language Char :=
  manyOf (fun c => c = '_' || isDigitOf base c) ⊓ holding (isDigitOf base)

/-- Literals in another base than ten. -/
def basedLiterals : Language Char :=
  based fun mark => digitsOf (baseOf mark)

/-- Literals in base ten: a digit before or behind the point, and one in the exponent. -/
def decimalLiterals : Language Char :=
  (fixedPoint ⊓ holding Char.isDigit) *
    (1 + exponent (manyOf Char.isDigit ⊓ holding Char.isDigit))

/-- Number literals: with at least one digit where digits are needed, and with digits of their base
only. Underscores may group digits. -/
def literals : Language Char :=
  signed (basedLiterals + decimalLiterals)

/-- Words in another base than ten without a digit, or with one that the base does not have. -/
def unfinishedBased : Language Char :=
  based fun mark => manyOf (· = '_') +
    manyOf isHexDigitOrBar ⊓ holding fun c => isHexDigit c && !isDigitOf (baseOf mark) c

/-- Words in base ten with an exponent, and without a digit either before it or in it. -/
def unfinishedDecimal : Language Char :=
  (fixedPoint ⊓ lacking Char.isDigit) * exponent (manyOf Char.isDigit) + fixedPoint * exponent 1

/-- Words that are written like a number and lack a digit, or have a wrong one. -/
def unfinished : Language Char :=
  signed (unfinishedBased + unfinishedDecimal)

/-! ## Characters of the parts -/

/-- A character of a word in base ten. -/
def isDecimalChar (c : Char) : Bool :=
  isDigitOrBar c || c = '.' || isExponentMark c || isSign c

theorem sign_le : 1 + oneOf isSign ≤ manyOf isSign :=
  add_le_manyOf one_le_manyOf (oneOf_le_manyOf fun _ h => h)

theorem fraction_le : fraction ≤ manyOf fun c => isDigitOrBar c || c = '.' :=
  add_le_manyOf one_le_manyOf (mul_le_manyOf
    (oneOf_le_manyOf fun _ hc => Bool.or_eq_true_iff.mpr (.inr hc))
    (manyOf_le_manyOf fun _ hc => Bool.or_eq_true_iff.mpr (.inl hc)))

theorem fixedPoint_le : fixedPoint ≤ manyOf fun c => isDigitOrBar c || c = '.' :=
  mul_le_manyOf (manyOf_le_manyOf fun _ hc => Bool.or_eq_true_iff.mpr (.inl hc)) fraction_le

theorem decimalWords_le : decimalWords ≤ manyOf isDecimalChar := by
  refine mul_le_manyOf (fixedPoint_le.trans (manyOf_le_manyOf ?_))
    (add_le_manyOf one_le_manyOf (mul_le_manyOf (oneOf_le_manyOf ?_)
      (mul_le_manyOf (add_le_manyOf one_le_manyOf (oneOf_le_manyOf ?_)) (manyOf_le_manyOf ?_))))
  all_goals
    intro c hc
    simp_all [isDecimalChar, isDigitOrBar]

theorem not_isSign_of_isDigit (h : c.isDigit = true) : isSign c = false := by
  by_contra hsign
  simp only [isSign, Bool.not_eq_false, Bool.or_eq_true, decide_eq_true_eq] at hsign
  rcases hsign with rfl | rfl <;> cases h

theorem not_isSign_of_digits (c : Char) (u : List Char) (h : c :: u ∈ manyOf Char.isDigit) :
    isSign c = false :=
  not_isSign_of_isDigit (h c List.mem_cons_self)

theorem not_isDigitOrPoint_of_isExponentMark (h : isExponentMark c = true) :
    (isDigitOrBar c || c = '.') = false := by
  simp only [isExponentMark, Bool.or_eq_true, decide_eq_true_eq] at h
  rcases h with rfl | rfl <;> rfl

theorem not_isDecimalChar_of_isBaseMark (h : isBaseMark c = true) : isDecimalChar c = false := by
  simp only [isBaseMark, Bool.or_eq_true, decide_eq_true_eq] at h
  rcases h with ((((rfl | rfl) | rfl) | rfl) | rfl) | rfl <;> rfl

/-- The letter of a base stands in no word in base ten. -/
theorem not_decimalWords_of_based {mark : Char} {ds : List Char} (hmark : isBaseMark mark = true) :
    '0' :: mark :: ds ∉ decimalWords := by
  intro h
  have hdecimal : isDecimalChar mark = true := decimalWords_le h mark (by simp)
  rw [not_isDecimalChar_of_isBaseMark hmark] at hdecimal
  cases hdecimal

/-- A sign is the first character of no magnitude. -/
theorem not_isSign_of_magnitude (h : c :: u ∈ basedWords + decimalWords) : isSign c = false := by
  by_contra hsign
  simp only [isSign, Bool.not_eq_false, Bool.or_eq_true, decide_eq_true_eq] at hsign
  rcases h with ⟨mark, ds, -, -, heq⟩ | hdecimal
  · cases heq
    revert hsign
    decide
  rcases head_mul hdecimal with ⟨v, hv⟩ | hexponent
  · have hc := fixedPoint_le hv c List.mem_cons_self
    rcases hsign with rfl | rfl <;> cases hc
  · have hc := head_optional_mul hexponent
    rcases hsign with rfl | rfl <;> cases hc

theorem not_isSign_of_unsigned (h : c :: u ∈ (basedWords + decimalWords) * (1 + oneOf (· = 'i'))) :
    isSign c = false := by
  rcases head_mul h with ⟨v, hv⟩ | hi
  · exact not_isSign_of_magnitude hv
  · rw [of_decide_eq_true (head_optional hi)]
    rfl

/-- The letter of an imaginary number stands in no magnitude. -/
theorem magnitude_le : basedWords + decimalWords ≤ manyOf (· ≠ 'i') := by
  refine add_le_manyOf ?_ (decimalWords_le.trans (manyOf_le_manyOf fun c hc => ?_))
  · rintro _ ⟨mark, ds, hmark, hds, rfl⟩
    refine List.forall_mem_cons.mpr ⟨rfl, List.forall_mem_cons.mpr ⟨?_, fun c hc => ?_⟩⟩
    · refine decide_eq_true ?_
      rintro rfl
      cases hmark
    · refine decide_eq_true ?_
      rintro rfl
      cases hds _ hc
  · refine decide_eq_true ?_
    rintro rfl
    cases hc

theorem head_imaginary (c : Char) (u : List Char) (h : c :: u ∈ 1 + oneOf (· = 'i')) :
    decide (c ≠ 'i') = false := by
  simpa using head_optional h

/-! ## A word with a digit is a literal or unfinished -/

variable {base : Nat} {mark : Char} {ds : List Char}

theorem isHexDigit_of_isDigitOf (h : isDigitOf base c = true) : isHexDigit c = true := by
  rw [isDigitOf, Option.any_eq_true] at h
  obtain ⟨value, hvalue, -⟩ := h
  rw [isHexDigit, hvalue]
  rfl

theorem digitsOf_le : digitsOf base ≤ manyOf isHexDigitOrBar := by
  refine le_trans inf_le_left (manyOf_le_manyOf fun c hc => ?_)
  rcases Bool.or_eq_true_iff.mp hc with hbar | hdigit
  · exact Bool.or_eq_true_iff.mpr (.inl hbar)
  · exact Bool.or_eq_true_iff.mpr (.inr (isHexDigit_of_isDigitOf hdigit))

theorem cons_mem_based_iff {digits : Char → Language Char} (hmark : isBaseMark mark = true) :
    '0' :: mark :: ds ∈ based digits ↔ ds ∈ digits mark := by
  constructor
  · rintro ⟨_, _, -, hds, heq⟩
    cases heq
    exact hds
  · exact fun hds => ⟨mark, ds, hmark, hds, rfl⟩

/-- Digits are those of a base unless there is none, or one that the base does not have. -/
theorem mem_digitsOf_iff (hds : ds ∈ manyOf isHexDigitOrBar) :
    ds ∈ digitsOf base ↔ ds ∉ manyOf (· = '_') +
      manyOf isHexDigitOrBar ⊓ holding fun c => isHexDigit c && !isDigitOf base c := by
  constructor
  · rintro ⟨hall, d, hd, hdigit⟩ (hbars | ⟨-, e, he, hwrong⟩)
    · rw [of_decide_eq_true (hbars d hd)] at hdigit
      cases hdigit
    · obtain ⟨hhex, hnot⟩ := Bool.and_eq_true_iff.mp hwrong
      rcases Bool.or_eq_true_iff.mp (hall e he) with hbar | hdigit
      · rw [of_decide_eq_true hbar] at hhex
        cases hhex
      · rw [hdigit] at hnot
        cases hnot
  · intro h
    have hall : ds ∈ manyOf fun c => c = '_' || isDigitOf base c := by
      intro d hd
      by_contra hwrong
      obtain ⟨hbar, hdigit⟩ := Bool.or_eq_false_iff.mp (Bool.eq_false_iff.mpr hwrong)
      have hhex := (Bool.or_eq_true_iff.mp (hds d hd)).resolve_left (Bool.eq_false_iff.mp hbar)
      exact h (.inr ⟨hds, d, hd, by simp [hhex, hdigit]⟩)
    refine ⟨hall, ?_⟩
    by_contra hnone
    refine h (.inl fun d hd => ?_)
    exact (Bool.or_eq_true_iff.mp (hall d hd)).resolve_right fun hdigit => hnone ⟨d, hd, hdigit⟩

theorem not_isExponentMark_of_signedDigits
    (h : c :: u ∈ (1 + oneOf isSign) * manyOf Char.isDigit) : isExponentMark c = false := by
  by_contra hmark
  simp only [isExponentMark, Bool.not_eq_false, Bool.or_eq_true, decide_eq_true_eq] at hmark
  rcases head_mul h with ⟨v, hv⟩ | hdigit
  · have hc := sign_le hv c List.mem_cons_self
    rcases hmark with rfl | rfl <;> cases hc
  · have hc := hdigit c List.mem_cons_self
    rcases hmark with rfl | rfl <;> cases hc

theorem exponent_mono (h : A ≤ B) : exponent A ≤ exponent B :=
  mul_le_mul' le_rfl (mul_le_mul' le_rfl h)

/-- The digits of an exponent can be read off it. -/
theorem append_mem_exponent_iff {sign : List Char} (hA : A ≤ manyOf Char.isDigit)
    (hmark : isExponentMark mark = true) (hsign : sign ∈ 1 + oneOf isSign)
    (hds : ds ∈ manyOf Char.isDigit) : [mark] ++ (sign ++ ds) ∈ exponent A ↔ ds ∈ A := by
  have hinner : sign ++ ds ∈ (1 + oneOf isSign) * A ↔ ds ∈ A := by
    rw [append_mem_mul_iff sign_le not_isSign_of_digits le_rfl hA hsign hds,
      and_iff_right hsign]
  have hone : [mark] ∈ oneOf isExponentMark := ⟨mark, hmark, rfl⟩
  rw [exponent, append_mem_mul_iff (oneOf_le_manyOf fun _ h => h)
    (fun c u hu => not_isExponentMark_of_signedDigits hu) le_rfl (mul_le_mul' le_rfl hA) hone
    (Language.append_mem_mul hsign hds), and_iff_right hone, hinner]

theorem not_isDigitOrPoint_of_exponent (c : Char) (u : List Char)
    (h : c :: u ∈ 1 + exponent A) : (isDigitOrBar c || c = '.') = false :=
  not_isDigitOrPoint_of_isExponentMark (head_optional_mul h)

theorem nil_notMem_exponent : [] ∉ exponent A := by
  rintro ⟨_, ⟨mark, -, rfl⟩, rest, -, heq⟩
  cases heq

theorem basedLiterals_le : basedLiterals ≤ basedWords := by
  rintro _ ⟨mark, ds, hmark, hds, rfl⟩
  exact ⟨mark, ds, hmark, digitsOf_le hds, rfl⟩

theorem unfinishedBased_le : unfinishedBased ≤ basedWords := by
  rintro _ ⟨mark, ds, hmark, hds | ⟨hds, -⟩, rfl⟩
  · exact ⟨mark, ds, hmark, fun d hd => Bool.or_eq_true_iff.mpr (.inl (hds d hd)), rfl⟩
  · exact ⟨mark, ds, hmark, hds, rfl⟩

theorem decimalLiterals_le : decimalLiterals ≤ decimalWords :=
  mul_le_mul' inf_le_left (add_le_add le_rfl (exponent_mono inf_le_left))

theorem unfinishedDecimal_le : unfinishedDecimal ≤ decimalWords := by
  rintro w (⟨f, ⟨hf, -⟩, x, hx, rfl⟩ | ⟨f, hf, x, hx, rfl⟩)
  · exact Language.append_mem_mul hf (.inr hx)
  · exact Language.append_mem_mul hf (.inr (exponent_mono one_le_manyOf hx))

/-- In base ten a digit is needed before an exponent or without one, and one in it. -/
theorem mem_decimalLiterals_iff (h : w ∈ decimalWords) :
    w ∈ decimalLiterals ↔ w ∈ holding Char.isDigit ∧ w ∉ unfinishedDecimal := by
  obtain ⟨f, hf, x, hx, rfl⟩ := h
  change f ++ x ∈ decimalLiterals ↔ f ++ x ∈ holding Char.isDigit ∧ f ++ x ∉ unfinishedDecimal
  have hsplit {A B : Language Char} (hA : A ≤ fixedPoint)
      (hB : B ≤ 1 + exponent (manyOf Char.isDigit)) : f ++ x ∈ A * B ↔ f ∈ A ∧ x ∈ B :=
    append_mem_mul_iff fixedPoint_le not_isDigitOrPoint_of_exponent hA hB hf hx
  have hliteral : f ++ x ∈ decimalLiterals ↔ f ∈ holding Char.isDigit ∧
      x ∈ 1 + exponent (manyOf Char.isDigit ⊓ holding Char.isDigit) :=
    (hsplit inf_le_left (add_le_add le_rfl (exponent_mono inf_le_left))).trans
      (and_congr_left' (and_iff_right hf))
  have hunfinished : f ++ x ∈ unfinishedDecimal ↔
      f ∉ holding Char.isDigit ∧ x ∈ exponent (manyOf Char.isDigit) ∨ x ∈ exponent 1 :=
    or_congr ((hsplit inf_le_left fun _ => .inr).trans
        (and_congr_left' ((and_iff_right hf).trans mem_lacking_iff)))
      ((hsplit le_rfl fun _ hw => .inr (exponent_mono one_le_manyOf hw)).trans (and_iff_right hf))
  rw [hliteral, hunfinished]
  rcases hx with rfl | hx
  · have hnone : ¬ (f ∉ holding Char.isDigit ∧ [] ∈ exponent (manyOf Char.isDigit) ∨
        [] ∈ exponent 1) := by
      rintro (⟨-, hnil⟩ | hnil) <;> exact nil_notMem_exponent hnil
    rw [List.append_nil, and_iff_left hnone]
    exact and_iff_left (.inl rfl)
  obtain ⟨_, ⟨mark, hmark, rfl⟩, _, ⟨sign, hsign, ds, hds, rfl⟩, rfl⟩ := hx
  have hin {A : Language Char} (hA : A ≤ manyOf Char.isDigit) :
      [mark] ++ (sign ++ ds) ∈ exponent A ↔ ds ∈ A :=
    append_mem_exponent_iff hA hmark hsign hds
  constructor
  · rintro ⟨⟨d, hd, hdigit⟩, hx | hx⟩
    · cases hx
    obtain ⟨-, e, he, -⟩ := (hin inf_le_left).mp hx
    refine ⟨⟨d, List.mem_append_left _ hd, hdigit⟩, ?_⟩
    rintro (⟨hlacks, -⟩ | hnone)
    · exact hlacks ⟨d, hd, hdigit⟩
    · obtain rfl : ds = [] := (hin one_le_manyOf).mp hnone
      cases he
  · rintro ⟨-, hfinished⟩
    refine ⟨?_, .inr ((hin inf_le_left).mpr ⟨hds, ?_⟩)⟩
    · by_contra hlacks
      exact hfinished (.inl ⟨hlacks, (hin le_rfl).mpr hds⟩)
    · cases ds with
      | nil => exact absurd (.inr ((hin one_le_manyOf).mpr rfl)) hfinished
      | cons d ds => exact ⟨d, List.mem_cons_self, hds d List.mem_cons_self⟩

/-- **A magnitude with a digit is that of a literal or unfinished.** The zero before the letter of a
base is a digit. -/
theorem mem_magnitude_iff (h : w ∈ basedWords + decimalWords) :
    w ∈ basedLiterals + decimalLiterals ↔
      w ∈ holding Char.isDigit ∧ w ∉ unfinishedBased + unfinishedDecimal := by
  rcases h with ⟨mark, ds, hmark, hds, rfl⟩ | h
  · have hdecimal : '0' :: mark :: ds ∉ decimalWords := not_decimalWords_of_based hmark
    have hliteral : '0' :: mark :: ds ∉ decimalLiterals := fun h => hdecimal (decimalLiterals_le h)
    have hunfinished : '0' :: mark :: ds ∉ unfinishedDecimal :=
      fun h => hdecimal (unfinishedDecimal_le h)
    have hdigit : '0' :: mark :: ds ∈ holding Char.isDigit := ⟨'0', List.mem_cons_self, rfl⟩
    rw [Language.mem_add, Language.mem_add, or_iff_left hliteral, or_iff_left hunfinished,
      and_iff_right hdigit, basedLiterals, unfinishedBased, cons_mem_based_iff hmark,
      cons_mem_based_iff hmark]
    exact mem_digitsOf_iff hds
  · have hbased : w ∉ basedWords := by
      rintro ⟨mark, ds, hmark, -, rfl⟩
      exact not_decimalWords_of_based hmark h
    have hliteral : w ∉ basedLiterals := fun h => hbased (basedLiterals_le h)
    have hunfinished : w ∉ unfinishedBased := fun h => hbased (unfinishedBased_le h)
    rw [Language.mem_add, Language.mem_add, or_iff_right hliteral, or_iff_right hunfinished]
    exact mem_decimalLiterals_iff h

/-- What stands between a sign and the letter of an imaginary number can be read off the whole. -/
theorem append_mem_signed_iff {s m i : List Char} (hA : A ≤ basedWords + decimalWords)
    (hs : s ∈ 1 + oneOf isSign) (hm : m ∈ basedWords + decimalWords)
    (hi : i ∈ 1 + oneOf (· = 'i')) : s ++ (m ++ i) ∈ signed A ↔ m ∈ A := by
  rw [signed, append_mem_mul_iff sign_le (fun c u => not_isSign_of_unsigned) le_rfl
    (mul_le_mul' hA le_rfl) hs (Language.append_mem_mul hm hi), and_iff_right hs,
    append_mem_mul_iff magnitude_le head_imaginary hA le_rfl hm hi, and_iff_left hi]

/-- A digit of a number stands neither in its sign nor in the letter of an imaginary one. -/
theorem append_mem_holding_iff {s m i : List Char} (hs : s ∈ 1 + oneOf isSign)
    (hi : i ∈ 1 + oneOf (· = 'i')) :
    s ++ (m ++ i) ∈ holding Char.isDigit ↔ m ∈ holding Char.isDigit := by
  constructor
  · rintro ⟨d, hd, hdigit⟩
    rcases List.mem_append.mp hd with hd | hd
    · have hsign := sign_le hs d hd
      rw [not_isSign_of_isDigit hdigit] at hsign
      cases hsign
    rcases List.mem_append.mp hd with hd | hd
    · exact ⟨d, hd, hdigit⟩
    · rcases hi with rfl | ⟨c, hc, rfl⟩
      · cases hd
      · rw [List.mem_singleton.mp hd, of_decide_eq_true hc] at hdigit
        cases hdigit
  · rintro ⟨d, hd, hdigit⟩
    exact ⟨d, List.mem_append_right s (List.mem_append_left i hd), hdigit⟩

/-- **A word with a digit is a literal or unfinished**, and never both. -/
theorem mem_literals_iff (h : w ∈ numberWords) :
    w ∈ literals ↔ w ∈ holding Char.isDigit ∧ w ∉ unfinished := by
  obtain ⟨s, hs, _, ⟨m, hm, i, hi, rfl⟩, rfl⟩ := h
  rw [literals, unfinished, append_mem_holding_iff hs hi,
    append_mem_signed_iff (add_le_add basedLiterals_le decimalLiterals_le) hs hm hi,
    append_mem_signed_iff (add_le_add unfinishedBased_le unfinishedDecimal_le) hs hm hi]
  exact mem_magnitude_iff hm

/-! ## The reader takes the longest word -/

namespace Lexeme

/-- A splitter takes the longest word of a language. -/
def TakesLongest (f : List Char → List Char × List Char) (A : Language Char) : Prop :=
  ∀ cs, IsLongest A (f cs).1 (f cs).2 cs

section Splitters

variable {f g : List Char → List Char × List Char}

theorem takesLongest_takeOne (p : Char → Bool) : TakesLongest (takeOne p) (1 + oneOf p) := by
  intro cs
  refine ⟨takeOne_append p cs, ?_, ?_⟩
  all_goals
    cases cs with
    | nil => ?_
    | cons c cs => ?_
  · exact .inl rfl
  · rw [takeOne]
    split
    · next hc => exact .inr ⟨c, hc, rfl⟩
    · exact .inl rfl
  · exact fun w _ hprefix => hprefix
  · rintro w (rfl | ⟨d, hd, rfl⟩) hprefix
    · exact List.nil_prefix
    · obtain ⟨rfl, -⟩ := List.cons_prefix_cons.mp hprefix
      rw [takeOne, if_pos hd]

theorem takesLongest_takeMany (p : Char → Bool) : TakesLongest (takeMany p) (manyOf p) := by
  intro cs
  refine ⟨takeMany_append p cs, fun c => mem_takeMany, ?_⟩
  rintro w hw ⟨tail, rfl⟩
  rw [takeMany, List.takeWhile_append_of_pos hw]
  exact List.prefix_append _ _

/-- **One part after the other is the longest whole**, if nothing that the first part may hold
begins the second: a shorter first part could only be followed by an empty second one. -/
theorem takesLongest_takeBoth (hf : TakesLongest f A) (hg : TakesLongest g B)
    (hA : A ≤ manyOf p) (hB : ∀ c u, c :: u ∈ B → p c = false) :
    TakesLongest (takeBoth f g) (A * B) := by
  intro cs
  obtain ⟨hfcs, hfmem, hflongest⟩ := hf cs
  obtain ⟨hgcs, hgmem, hglongest⟩ := hg (f cs).2
  refine ⟨?_, Language.append_mem_mul hfmem hgmem, ?_⟩
  · rw [takeBoth, List.append_assoc, hgcs, hfcs]
  rintro _ ⟨a, ha, b, hb, rfl⟩ hprefix
  obtain ⟨more, hmore⟩ := hflongest a ha ((List.prefix_append a b).trans hprefix)
  rw [← hfcs, ← hmore, List.append_assoc, List.prefix_append_right_inj] at hprefix
  change a ++ b <+: (f cs).1 ++ (g (f cs).2).1
  rw [← hmore, List.append_assoc, List.prefix_append_right_inj]
  rcases eq_nil_of_mul hA hB (hmore ▸ hfmem) hb hprefix with rfl | rfl
  · exact hglongest b hb hprefix
  · exact List.nil_prefix

theorem takeIfAny_takeOne_cons (p : Char → Bool) (c : Char) (cs : List Char) :
    takeIfAny (takeOne p) g (c :: cs) =
      if p c then (c :: (g cs).1, (g cs).2) else ([], c :: cs) := by
  by_cases hc : p c = true
  · rw [takeIfAny, takeOne, if_pos hc, if_pos hc]
    rfl
  · rw [takeIfAny, takeOne, if_neg hc, if_neg hc]

theorem takesLongest_takeIfAny (p : Char → Bool) (hg : TakesLongest g B) :
    TakesLongest (takeIfAny (takeOne p) g) (1 + oneOf p * B) := by
  rintro (_ | ⟨c, cs⟩)
  · exact ⟨rfl, .inl rfl, fun _ _ hprefix => hprefix⟩
  rw [takeIfAny_takeOne_cons]
  split
  · next hc =>
    obtain ⟨happend, hmem, hlongest⟩ := hg cs
    refine ⟨congrArg (c :: ·) happend, .inr ⟨[c], ⟨c, hc, rfl⟩, _, hmem, rfl⟩, ?_⟩
    rintro w (rfl | ⟨_, ⟨d, -, rfl⟩, b, hb, rfl⟩) hprefix
    · exact List.nil_prefix
    · change d :: b <+: c :: cs at hprefix
      obtain ⟨rfl, htail⟩ := List.cons_prefix_cons.mp hprefix
      exact List.cons_prefix_cons.mpr ⟨rfl, hlongest b hb htail⟩
  · next hc =>
    refine ⟨rfl, .inl rfl, ?_⟩
    rintro w (rfl | hw) hprefix
    · exact List.nil_prefix
    · obtain _ | ⟨d, w⟩ := w
      · exact List.nil_prefix
      · obtain ⟨rfl, -⟩ := List.cons_prefix_cons.mp hprefix
        exact absurd (head_oneOf_mul hw) hc

end Splitters

theorem takesLongest_takeDecimal : TakesLongest takeDecimal decimalWords := by
  have hexponent := takesLongest_takeIfAny isExponentMark
    (takesLongest_takeBoth (takesLongest_takeOne isSign) (takesLongest_takeMany Char.isDigit)
      sign_le not_isSign_of_digits)
  have hfraction := takesLongest_takeBoth (takesLongest_takeIfAny (· = '.')
    (takesLongest_takeMany isDigitOrBar)) hexponent fraction_le not_isDigitOrPoint_of_exponent
  have hwhole := takesLongest_takeBoth (takesLongest_takeMany isDigitOrBar) hfraction
    (le_refl (manyOf isDigitOrBar)) fun c u hu => ?_
  · rw [decimalWords, fixedPoint, mul_assoc]
    exact hwhole
  · rcases head_mul hu with ⟨v, hv⟩ | hmark
    · rw [of_decide_eq_true (head_optional_mul hv)]
      rfl
    · exact (Bool.or_eq_false_iff.mp (not_isDigitOrPoint_of_exponent c u hmark)).1

theorem takeMagnitude_based {mark : Char} (h : isBaseMark mark = true) (cs : List Char) :
    takeMagnitude ('0' :: mark :: cs) =
      let (digits, rest) := takeMany isHexDigitOrBar cs
      ('0' :: mark :: digits, rest) := by
  rw [takeMagnitude, if_pos h]
  rfl

/-- Unless a zero and the letter of a base are first, the magnitude is in base ten. -/
theorem takeMagnitude_decimal
    (h : ∀ mark tail, cs = '0' :: mark :: tail → isBaseMark mark = false) :
    takeMagnitude cs = takeDecimal cs := by
  unfold takeMagnitude
  split
  · next mark tail =>
    rw [if_neg (Bool.eq_false_iff.mp (h mark tail rfl))]
  · rfl

/-- The letter of a base ends a word in base ten, so that in front of it the longer word is the one
in the other base. -/
theorem takesLongest_takeMagnitude : TakesLongest takeMagnitude (basedWords + decimalWords) := by
  intro cs
  by_cases h : ∃ mark tail, cs = '0' :: mark :: tail ∧ isBaseMark mark = true
  · obtain ⟨mark, tail, rfl, hmark⟩ := h
    obtain ⟨happend, hmem, hlongest⟩ := takesLongest_takeMany isHexDigitOrBar tail
    rw [takeMagnitude_based hmark]
    refine ⟨congrArg ('0' :: mark :: ·) happend, .inl ⟨mark, _, hmark, hmem, rfl⟩, ?_⟩
    rintro w (⟨d, digits, -, hdigits, rfl⟩ | hw) hprefix
    · obtain ⟨-, hmarked⟩ := List.cons_prefix_cons.mp hprefix
      obtain ⟨rfl, htail⟩ := List.cons_prefix_cons.mp hmarked
      have hlong := hlongest digits hdigits htail
      exact List.cons_prefix_cons.mpr ⟨rfl, List.cons_prefix_cons.mpr ⟨rfl, hlong⟩⟩
    · match w, hw, hprefix with
      | [], _, _ => exact List.nil_prefix
      | [d], _, hprefix =>
        obtain ⟨rfl, -⟩ := List.cons_prefix_cons.mp hprefix
        exact List.cons_prefix_cons.mpr ⟨rfl, List.nil_prefix⟩
      | d :: e :: w, hw, hprefix =>
        obtain ⟨rfl, hmarked⟩ := List.cons_prefix_cons.mp hprefix
        obtain ⟨rfl, -⟩ := List.cons_prefix_cons.mp hmarked
        exact absurd hw (not_decimalWords_of_based hmark)
  · have hdecimal : takeMagnitude cs = takeDecimal cs :=
      takeMagnitude_decimal fun mark tail htail =>
        Bool.eq_false_iff.mpr fun hmark => h ⟨mark, tail, htail, hmark⟩
    obtain ⟨happend, hmem, hlongest⟩ := takesLongest_takeDecimal cs
    rw [hdecimal]
    refine ⟨happend, .inr hmem, ?_⟩
    rintro w (⟨mark, digits, hmark, -, rfl⟩ | hw) hprefix
    · obtain ⟨tail, rfl⟩ := hprefix
      exact absurd ⟨mark, digits ++ tail, rfl, hmark⟩ h
    · exact hlongest w hw hprefix

/-- **The reader takes the longest word that is written like a number.** -/
theorem takesLongest_takeNumber : TakesLongest takeNumber numberWords :=
  takesLongest_takeBoth (takesLongest_takeOne isSign)
    (takesLongest_takeBoth takesLongest_takeMagnitude (takesLongest_takeOne (· = 'i')) magnitude_le
      head_imaginary)
    sign_le fun _ _ => not_isSign_of_unsigned

end Lexeme

/-! ## Tokens of numbers -/

/-- The first characters of what is written like a number: a sign, a digit, or a point before a
digit. -/
def StartsNumber (c : Char) (cs : List Char) : Prop :=
  isSign c = true ∨ c.isDigit = true ∨ c = '.' ∧ cs.head?.any Char.isDigit = true

/-- How a word that is written like a number is read, if `rest` stands behind it. -/
def readNumber (word rest : List Char) : Except TemplateFault Lexeme :=
  if word.any Char.isDigit = true ∧ rest.head?.any isWordChar = false then
    .ok ⟨.number (String.ofList word), word, rest⟩
  else .error (.badNumber (String.ofList (word ++ rest.takeWhile isWordChar)))

namespace Lexeme

theorem scanNumber_eq (cs : List Char) :
    ∃ word rest, IsLongest numberWords word rest cs ∧ scanNumber cs = readNumber word rest := by
  refine ⟨_, _, takesLongest_takeNumber cs, ?_⟩
  rw [scanNumber, readNumber]
  simp

theorem start_number (h : isSign c = true ∨ c.isDigit = true) : Start.of c = .number := by
  have hnumber : (isSign c || c.isDigit) = true := Bool.or_eq_true_iff.mpr h
  fun_cases Start.of c
  all_goals first
    | rfl
    | contradiction
    | (subst c; cases hnumber)

theorem scan_number (h : StartsNumber c cs) : scan c cs = scanNumber (c :: cs) := by
  rcases h with h | h | ⟨rfl, h⟩
  · rw [scan, start_number (.inl h)]
  · rw [scan, start_number (.inr h)]
  · exact if_pos h

theorem mark_ne_number {text : String} (h : Start.of c = .mark (.number text)) : False := by
  revert h
  fun_cases Start.of c <;> intro h <;> cases h

theorem wordKind_ne_number {word text : String} (h : wordKind word = .number text) : False := by
  revert h
  fun_cases wordKind word <;> intro h <;> cases h

/-- A number that is no character constant is read by the reader of numbers. -/
theorem scanNumber_of_scan {l : Lexeme} {text : String} (h : scan c cs = .ok l)
    (hkind : l.kind = .number text) (hquote : text.toList.head? ≠ some '\'') :
    scanNumber (c :: cs) = .ok l := by
  have hannounced := Start.announced_of c
  unfold scan at h
  generalize hstart : Start.of c = start at h hannounced
  cases start with
  | mark kind =>
    cases h
    cases hkind
    exact (mark_ne_number hstart).elim
  | colon =>
    dsimp only [scanDeclare] at h
    split at h
    · cases h
      cases hkind
    · cases h
  | quote =>
    dsimp only at h
    split at h
    · cases h
    · cases h
      cases hkind
  | backquote =>
    dsimp only at h
    split at h
    · cases h
    · cases h
      cases hkind
  | apostrophe =>
    cases hannounced
    dsimp only at h
    split at h
    · cases h
    · cases h
      cases hkind
      rw [String.toList_ofList] at hquote
      exact absurd rfl hquote
  | dollar =>
    cases h
    cases hkind
  | dot =>
    dsimp only at h
    unfold scanDot at h
    split at h
    · exact h
    · split at h <;>
      · cases h
        cases hkind
  | number => exact h
  | word =>
    cases h
    exact (wordKind_ne_number hkind).elim
  | unknown => cases h

end Lexeme

/-! ## Whole numbers -/

theorem toLower_of_isDigit (h : c.isDigit = true) : c.toLower = c := by
  rw [Char.isDigit, Bool.and_eq_true, decide_eq_true_eq, decide_eq_true_eq] at h
  refine dif_neg fun hupper => ?_
  have hdigit := UInt32.le_iff_toNat_le.mp h.2
  have hletter := UInt32.le_iff_toNat_le.mp hupper.1
  simp at hdigit hletter
  omega

/-- A character of a number in base ten, the letter of an imaginary one included. -/
def isPlainChar (c : Char) : Bool :=
  isDecimalChar c || c = 'i'

theorem isPlainChar_toLower (h : isPlainChar c = true) : isPlainChar c.toLower = true := by
  simp only [isPlainChar, isDecimalChar, isDigitOrBar, isExponentMark, isSign, Bool.or_eq_true,
    decide_eq_true_eq] at h
  rcases h with ((((rfl | hdigit) | rfl) | (rfl | rfl)) | (rfl | rfl)) | rfl
  case inl.inl.inl.inl.inr =>
    rw [toLower_of_isDigit hdigit]
    simp [isPlainChar, isDecimalChar, isDigitOrBar, hdigit]
  all_goals decide

theorem signed_decimalWords_le : signed decimalWords ≤ manyOf isPlainChar := by
  have hdecimal (c : Char) (hc : isDecimalChar c = true) : isPlainChar c = true :=
    Bool.or_eq_true_iff.mpr (.inl hc)
  have hsign (c : Char) (hc : isSign c = true) : isPlainChar c = true :=
    hdecimal c (Bool.or_eq_true_iff.mpr (.inr hc))
  have himaginary (c : Char) (hc : decide (c = 'i') = true) : isPlainChar c = true :=
    Bool.or_eq_true_iff.mpr (.inr hc)
  exact mul_le_manyOf (add_le_manyOf one_le_manyOf (oneOf_le_manyOf hsign))
    (mul_le_manyOf (decimalWords_le.trans (manyOf_le_manyOf hdecimal))
      (add_le_manyOf one_le_manyOf (oneOf_le_manyOf himaginary)))

theorem isPlainChar_of_mem_lowered {d : Char} (hw : w ∈ manyOf isPlainChar)
    (hd : d ∈ (w.dropWhile p).map Char.toLower) : isPlainChar d = true := by
  obtain ⟨c, hc, rfl⟩ := List.mem_map.mp hd
  exact isPlainChar_toLower (hw c ((List.dropWhile_sublist p).subset hc))

theorem mem_lowered (hc : c ∈ w) (hp : p c = false) :
    c.toLower ∈ (w.dropWhile p).map Char.toLower := by
  rw [← List.takeWhile_append_dropWhile (p := p) (l := w)] at hc
  refine List.mem_map_of_mem ((List.mem_append.mp hc).resolve_left fun htaken => ?_)
  rw [List.mem_takeWhile_imp htaken] at hp
  cases hp

/-- **A number with an exponent is not taken for a whole one.** -/
theorem isWholeNumber_eq_false (hw : w ∈ signed decimalWords) (hmark : w ∈ holding isExponentMark) :
    isWholeNumber (String.ofList w) = false := by
  obtain ⟨mark, hmem, hmark⟩ := hmark
  simp only [isExponentMark, Bool.or_eq_true, decide_eq_true_eq] at hmark
  have hplain : ∀ d ∈ (w.dropWhile fun c => c = '+' || c = '-').map Char.toLower,
      isPlainChar d = true :=
    fun d => isPlainChar_of_mem_lowered (signed_decimalWords_le hw)
  have he : 'e' ∈ (w.dropWhile fun c => c = '+' || c = '-').map Char.toLower := by
    rcases hmark with rfl | rfl
    · exact mem_lowered hmem (by decide)
    · exact mem_lowered hmem (by decide)
  rw [isWholeNumber, String.toList_ofList]
  generalize (w.dropWhile fun c => c = '+' || c = '-').map Char.toLower = lowered at hplain he
  split
  · cases hplain _ List.mem_cons_self
  · cases hplain _ (List.mem_cons_of_mem _ List.mem_cons_self)
  · rw [List.contains_iff_mem.mpr he]
    simp

/-- **A word in base ten that is let through as a whole number is a literal**: without an exponent
the digit stands before or behind the point. -/
theorem mem_literals_of_isWholeNumber (hw : w ∈ signed decimalWords)
    (hdigit : w ∈ holding Char.isDigit) (hwhole : isWholeNumber (String.ofList w) = true) :
    w ∈ literals := by
  by_cases hmark : w ∈ holding isExponentMark
  · rw [isWholeNumber_eq_false hw hmark] at hwhole
    cases hwhole
  obtain ⟨s, hs, _, ⟨_, ⟨m, hm, e, rfl | he, rfl⟩, i, hi, rfl⟩, rfl⟩ := hw
  · have hdigits : m ++ [] ∈ holding Char.isDigit := (append_mem_holding_iff hs hi).mp hdigit
    rw [List.append_nil] at hdigits
    exact ⟨s, hs, _, ⟨_, .inr ⟨m, ⟨hm, hdigits⟩, [], .inl rfl, rfl⟩, i, hi, rfl⟩, rfl⟩
  · obtain ⟨_, ⟨mark, hexponent, rfl⟩, digits, -, rfl⟩ := he
    exact absurd ⟨mark, by simp, hexponent⟩ hmark

namespace Scan

/-- **Which numbers are let through.** The tokens of numbers in a source, but for character
constants, are words that are written like a number and have a digit. Such a word is a literal
unless it is unfinished; and if it is taken for a whole number, it is a literal or in another base
than ten. Wherever a number starts, the longest word that is written like one is taken. It becomes a
token if it has a digit and no character of a name follows, and otherwise it is refused for bad
number syntax. As it is a literal exactly when it has a digit and is not unfinished, the refusal
fails to tell literals from other words only where a word is unfinished. -/
theorem numbers_let_through {source : String} {scan : Scan} (h : ofSource source = .ok scan) :
    (∀ t ∈ scan.tokens, ∀ text : String, t.kind = .number text → text.toList.head? ≠ some '\'' →
      text.toList ∈ numberWords ⊓ holding Char.isDigit ∧
        (text.toList ∈ literals ↔ text.toList ∉ unfinished) ∧
        (isWholeNumber text = true → text.toList ∈ literals ∨ text.toList ∈ signed basedWords)) ∧
      ∀ c cs, StartsNumber c cs → ∃ word rest, IsLongest numberWords word rest (c :: cs) ∧
        Lexeme.scan c cs = readNumber word rest ∧
        (word ∈ literals ↔ word ∈ holding Char.isDigit ∧ word ∉ unfinished) := by
  refine ⟨fun t ht text hkind hquote => ?_, fun c cs hstart => ?_⟩
  · obtain ⟨c, cs, l, hl, hlkind⟩ := isLexeme_of_ofSource h t ht (hkind ▸ rfl)
    have hnumber := scanNumber_of_scan hl (hlkind.trans hkind) hquote
    obtain ⟨word, rest, hlongest, hread⟩ := scanNumber_eq (c :: cs)
    rw [hread, readNumber] at hnumber
    split at hnumber
    · next hadmitted =>
      have hdigit : word ∈ holding Char.isDigit := List.any_eq_true.mp hadmitted.1
      cases hnumber
      cases hlkind.trans hkind
      rw [String.toList_ofList]
      have hfinished : word ∈ literals ↔ word ∉ unfinished :=
        (mem_literals_iff hlongest.mem).trans (and_iff_right hdigit)
      refine ⟨⟨hlongest.mem, hdigit⟩, hfinished, fun hwhole => ?_⟩
      obtain ⟨s, hs, _, ⟨m, hm | hm, i, hi, rfl⟩, rfl⟩ := hlongest.mem
      · exact .inr ⟨s, hs, _, ⟨m, hm, i, hi, rfl⟩, rfl⟩
      · exact .inl (mem_literals_of_isWholeNumber ⟨s, hs, _, ⟨m, hm, i, hi, rfl⟩, rfl⟩ hdigit
          hwhole)
    · cases hnumber
  · obtain ⟨word, rest, hlongest, hread⟩ := scanNumber_eq (c :: cs)
    exact ⟨word, rest, hlongest, (scan_number hstart).trans hread, mem_literals_iff hlongest.mem⟩

/-- A fraction with a sign and an exponent is let through, a second point ends a number, and the
letter of a base without digits behind it is taken for a whole number. -/
theorem numbers_let_through_mixed :
    let source := "\x7b\x7bindex .A 0x -.5e+3i\x7d\x7d"
    ∃ scan, ofSource source = .ok scan ∧ ⟨.number "-.5e+3i", ⟨1, 15⟩, true⟩ ∈ scan.tokens ∧
      "-.5e+3i".toList ∈ numberWords ⊓ holding Char.isDigit ∧
      ⟨.number "0x", ⟨1, 12⟩, true⟩ ∈ scan.tokens ∧ isWholeNumber "0x" = true ∧
      ("0x".toList ∈ literals ∨ "0x".toList ∈ signed basedWords) ∧
      StartsNumber '1' ".5.2".toList ∧
      ∃ word rest, IsLongest numberWords word rest "1.5.2".toList ∧
        Lexeme.scan '1' ".5.2".toList = readNumber word rest ∧
        (word ∈ literals ↔ word ∈ holding Char.isDigit ∧ word ∉ unfinished) := by
  intro source
  obtain ⟨scan, hscan, hany⟩ := exists_ok_of_any (x := ofSource source)
    (p := fun scan => ⟨.number "-.5e+3i", ⟨1, 15⟩, true⟩ ∈ scan.tokens ∧
      ⟨.number "0x", ⟨1, 12⟩, true⟩ ∈ scan.tokens) (by decide +kernel)
  obtain ⟨hfloat, hbased⟩ := of_decide_eq_true hany
  obtain ⟨htokens, hread⟩ := numbers_let_through hscan
  have hstart : StartsNumber '1' ".5.2".toList := .inr (.inl rfl)
  have hwhole : isWholeNumber "0x" = true := by decide +kernel
  exact ⟨scan, hscan, hfloat, (htokens _ hfloat _ rfl (by decide)).1, hbased, hwhole,
    (htokens _ hbased _ rfl (by decide)).2.2 hwhole, hstart, hread _ _ hstart⟩

/-- It is not so that only literals are let through: the letter of a base without digits behind it
is, and such a word picks an element of a field. -/
theorem not_numbers_literals :
    (¬ ∀ (source : String) (scan : Scan), ofSource source = .ok scan → ∀ t ∈ scan.tokens,
      ∀ text : String, t.kind = .number text → text.toList.head? ≠ some '\'' →
        text.toList ∈ literals) ∧
    ∃ tree, CallTree.ofSource "\x7b\x7bindex .A 0x\x7d\x7d" = .ok tree ∧
      (tree.get? [.named "A", .element]).isSome = true := by
  refine ⟨fun hliterals => ?_, exists_ok_of_any (by decide +kernel)⟩
  obtain ⟨scan, hscan, hany⟩ := exists_ok_of_any
    (x := ofSource "\x7b\x7bindex .A 0x\x7d\x7d")
    (p := fun scan => ⟨.number "0x", ⟨1, 12⟩, true⟩ ∈ scan.tokens) (by decide +kernel)
  have hliteral := hliterals _ scan hscan _ (of_decide_eq_true hany) "0x" rfl (by decide)
  have hbased : ['0', 'x'] ∈ unfinishedBased :=
    ⟨'x', [], rfl, .inl (List.forall_mem_nil _), rfl⟩
  have hunfinished : "0x".toList ∈ unfinished :=
    ⟨[], .inl rfl, _, ⟨_, .inl hbased, [], .inl rfl, rfl⟩, rfl⟩
  have hword : "0x".toList ∈ numberWords :=
    ⟨[], .inl rfl, _, ⟨_, .inl (unfinishedBased_le hbased), [], .inl rfl, rfl⟩, rfl⟩
  exact ((mem_literals_iff hword).mp hliteral).2 hunfinished

end Scan

end Fieldwise
