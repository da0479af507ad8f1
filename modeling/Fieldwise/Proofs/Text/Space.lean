import Fieldwise.Text.Alphabetic
import Fieldwise.Text.Numeric
import Fieldwise.Text.Space
import Mathlib.Data.List.DropRight
import Mathlib.Data.List.Induction
import Mathlib.Data.List.TakeWhile

/-!
# Texts with white space around them

* `IsSpace` : a text of white space only.
* `trim_append` : what trimming leaves of a text that begins with white space, and
  `exists_space_trim` : a text is what trimming leaves of it with white space around.
* `trim_dropWhileEnd` : white space dropped at the end beforehand makes no difference.
* `not_whiteSpace_of_isAlphabetic`, `not_whiteSpace_of_isNumeric` : letters and numbers are no white
  space, read off the tables of the three properties.
-/

set_option autoImplicit false

namespace Fieldwise.Text

/-! ## Tables without a common character -/

namespace CodeRanges

/-- No range of the one table meets a range of the other. -/
def apart (ranges others : CodeRanges) : Bool :=
  ranges.all fun range => others.all fun other =>
    range.2.blt other.1 || other.2.blt range.1

theorem not_contains_of_apart {ranges others : CodeRanges} (h : ranges.apart others = true)
    {c : Char} (hc : ranges.contains c = true) : others.contains c = false := by
  rw [Bool.eq_false_iff]
  intro hother
  obtain ⟨range, hrange, hin⟩ := List.any_eq_true.mp hc
  obtain ⟨other, hmem, hinOther⟩ := List.any_eq_true.mp hother
  have hapart := List.all_eq_true.mp (List.all_eq_true.mp h range hrange) other hmem
  simp only [Bool.and_eq_true, decide_eq_true_eq] at hin hinOther
  simp only [Bool.or_eq_true, Nat.blt_eq] at hapart
  omega

end CodeRanges

/-- A property that no white space has, neither among the basic characters nor by its table. -/
theorem not_whiteSpace_of_apart {basic : Char → Bool} {ranges : CodeRanges}
    (hbasic : ∀ n < 128, basic (Char.ofNat n) = true → isWhiteSpace (Char.ofNat n) = false)
    (htable : ranges.apart whiteSpaceRanges = true) {c : Char}
    (h : (if isBasic c then basic c else ranges.contains c) = true) : isWhiteSpace c = false := by
  split at h
  · rename_i hc
    have hfree := hbasic c.toNat (of_decide_eq_true hc)
    rw [Char.ofNat_toNat] at hfree
    exact hfree h
  · rename_i hc
    rw [isWhiteSpace, if_neg hc]
    exact CodeRanges.not_contains_of_apart htable h

theorem not_whiteSpace_of_isAlphabetic {c : Char} (h : isAlphabetic c = true) :
    isWhiteSpace c = false :=
  not_whiteSpace_of_apart (by decide +kernel) (by decide +kernel) h

theorem not_whiteSpace_of_isNumeric {c : Char} (h : isNumeric c = true) :
    isWhiteSpace c = false :=
  not_whiteSpace_of_apart (by decide +kernel) (by decide +kernel) h

theorem not_whiteSpace_of_isDigit {c : Char} (h : c.isDigit = true) : isWhiteSpace c = false := by
  have hbasic : isBasic c = true := by
    simp only [Char.isDigit, Bool.and_eq_true, decide_eq_true_eq, UInt32.le_iff_toNat_le] at h
    exact decide_eq_true (Nat.lt_of_le_of_lt h.2 (by decide))
  exact not_whiteSpace_of_isNumeric ((isNumeric_of_isBasic hbasic).trans h)

/-! ## The end of a text -/

variable {p : Char → Bool}

theorem dropWhileEnd_eq_nil {cs : List Char} (h : ∀ c ∈ cs, p c = true) :
    dropWhileEnd p cs = [] := by
  induction cs with
  | nil => rfl
  | cons c cs ih =>
    obtain ⟨hc, hcs⟩ := List.forall_mem_cons.mp h
    simp [dropWhileEnd, ih hcs, hc]

/-- Nothing is dropped before a character that stays. -/
theorem dropWhileEnd_append_cons {c : Char} (hc : p c = false) (front rest : List Char) :
    dropWhileEnd p (front ++ c :: rest) = front ++ c :: dropWhileEnd p rest := by
  induction front with
  | nil => cases h : dropWhileEnd p rest <;> simp [dropWhileEnd, h, hc]
  | cons d front ih =>
    rw [List.cons_append, dropWhileEnd, ih]
    cases front <;> rfl

/-- What is dropped at the end satisfies the condition. -/
theorem exists_dropWhileEnd_append (p : Char → Bool) (cs : List Char) :
    ∃ tail, (∀ c ∈ tail, p c = true) ∧ cs = dropWhileEnd p cs ++ tail := by
  induction cs with
  | nil => exact ⟨[], by simp, rfl⟩
  | cons c cs ih =>
    obtain ⟨tail, htail, hcs⟩ := ih
    rw [dropWhileEnd]
    split
    · rename_i hnil
      rw [hnil, List.nil_append] at hcs
      subst hcs
      by_cases hc : p c = true
      · exact ⟨c :: cs, List.forall_mem_cons.mpr ⟨hc, htail⟩, by simp [hc]⟩
      · exact ⟨cs, htail, by simp [hc]⟩
    · exact ⟨tail, htail, congrArg (c :: ·) hcs⟩

theorem dropWhileEnd_append {tail : List Char} (h : ∀ c ∈ tail, p c = true) (cs : List Char) :
    dropWhileEnd p (cs ++ tail) = dropWhileEnd p cs := by
  induction cs with
  | nil => exact dropWhileEnd_eq_nil h
  | cons c cs ih => rw [List.cons_append, dropWhileEnd, ih, dropWhileEnd]

theorem dropWhileEnd_eq_rdropWhile (p : Char → Bool) (cs : List Char) :
    dropWhileEnd p cs = cs.rdropWhile p := by
  induction cs using List.reverseRecOn with
  | nil => rfl
  | append_singleton cs c ih =>
    by_cases hc : p c = true
    · rw [List.rdropWhile_concat_pos _ _ _ hc, ← ih]
      exact dropWhileEnd_append (List.forall_mem_singleton.mpr hc) cs
    · rw [List.rdropWhile_concat_neg _ _ _ hc]
      exact dropWhileEnd_append_cons (by simpa using hc) cs []

/-! ## White space on both sides -/

/-- The text consists of white space. -/
def IsSpace (cs : List Char) : Prop :=
  ∀ c ∈ cs, isWhiteSpace c = true

instance (cs : List Char) : Decidable (IsSpace cs) :=
  inferInstanceAs (Decidable (∀ c ∈ cs, _))

theorem isSpace_nil : IsSpace [] := by simp [IsSpace]

theorem trim_append {w : List Char} (hw : IsSpace w) (cs : List Char) :
    trim (w ++ cs) = trim cs := by
  unfold trim
  rw [List.dropWhile_append_of_pos hw]

theorem trim_append_right (cs : List Char) {v : List Char} (hv : IsSpace v) :
    trim (cs ++ v) = trim cs := by
  induction cs with
  | nil => simpa [trim] using trim_append hv []
  | cons c cs ih =>
    by_cases hc : isWhiteSpace c = true
    · simpa [trim, hc] using ih
    · simpa [trim, hc] using dropWhileEnd_append hv (c :: cs)

/-- What trimming leaves begins with the first character that is no white space. -/
theorem trim_append_cons {w : List Char} (hw : IsSpace w) {c : Char}
    (hc : isWhiteSpace c = false) (rest : List Char) :
    trim (w ++ c :: rest) = c :: dropWhileEnd isWhiteSpace rest := by
  rw [trim_append hw, trim, List.dropWhile_cons_of_neg (by simp [hc])]
  exact dropWhileEnd_append_cons hc [] rest

/-- **White space dropped at the end beforehand makes no difference.** -/
theorem trim_dropWhileEnd (cs : List Char) : trim (dropWhileEnd isWhiteSpace cs) = trim cs := by
  obtain ⟨tail, htail, hcs⟩ := exists_dropWhileEnd_append isWhiteSpace cs
  conv => rhs; rw [hcs]
  exact (trim_append_right _ htail).symm

/-- **A text is what trimming leaves of it, with white space around.** -/
theorem exists_space_trim (cs : List Char) :
    ∃ w v, IsSpace w ∧ IsSpace v ∧ cs = w ++ (trim cs ++ v) := by
  obtain ⟨v, hv, hrest⟩ := exists_dropWhileEnd_append isWhiteSpace (cs.dropWhile isWhiteSpace)
  refine ⟨cs.takeWhile isWhiteSpace, v, fun c hc => List.mem_takeWhile_imp hc, hv, ?_⟩
  rw [trim, ← hrest, List.takeWhile_append_dropWhile]

/-- A text without white space is left as it is. -/
theorem trim_eq_self {cs : List Char} (h : ∀ c ∈ cs, isWhiteSpace c = false) : trim cs = cs := by
  cases cs using List.reverseRecOn with
  | nil => rfl
  | append_singleton front c =>
    have hlast : dropWhileEnd isWhiteSpace (front ++ [c]) = front ++ [c] :=
      dropWhileEnd_append_cons (h c (by simp)) front []
    have hfirst : (front ++ [c]).dropWhile isWhiteSpace = front ++ [c] := by
      cases front with
      | nil => exact List.dropWhile_cons_of_neg (by simp [h c])
      | cons d front => exact List.dropWhile_cons_of_neg (by simp [h d])
    rw [trim, hfirst, hlast]

end Fieldwise.Text
