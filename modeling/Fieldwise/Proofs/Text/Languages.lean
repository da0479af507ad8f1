import Mathlib.Computability.Language
import Mathlib.Order.CompletePartialOrder
import Mathlib.Order.ConditionallyCompleteLattice.Basic

/-!
# Languages over classes of characters

Words are lists of characters, and a notation is put together from classes of them with the
operations on languages.

* `oneOf`, `manyOf`, `holding`, `lacking` : the languages of a class.
* `head_mul` and its like : the first character of a word tells which part it stands in.
* `mul_inj` : a word falls into its parts in one way, if nothing that the first part may hold begins
  the second.
* `IsLongest` : the longest word of a language at the head of a list.
-/

set_option autoImplicit false

namespace Fieldwise

variable {A B : Language Char} {p q : Char → Bool} {w u : List Char} {c : Char}

/-- The words of one character of a class. -/
def oneOf (p : Char → Bool) : Language Char :=
  {w | ∃ c, p c = true ∧ w = [c]}

/-- The words whose characters all belong to a class. -/
def manyOf (p : Char → Bool) : Language Char :=
  {w | ∀ c ∈ w, p c = true}

/-- The words with a character of a class. -/
def holding (p : Char → Bool) : Language Char :=
  {w | ∃ c ∈ w, p c = true}

/-- The words without a character of a class. -/
def lacking (p : Char → Bool) : Language Char :=
  manyOf fun c => !p c

theorem mem_lacking_iff : w ∈ lacking p ↔ w ∉ holding p := by
  constructor
  · rintro h ⟨c, hc, hp⟩
    have hnot : (!p c) = true := h c hc
    rw [hp] at hnot
    cases hnot
  · intro h c hc
    cases hp : p c with
    | true => exact absurd ⟨c, hc, hp⟩ h
    | false => exact congrArg not hp

/-! ## Characters of words -/

theorem one_le_manyOf : 1 ≤ manyOf p := by
  rintro _ rfl c hc
  cases hc

theorem oneOf_le_manyOf (h : ∀ c, p c = true → q c = true) : oneOf p ≤ manyOf q := by
  rintro _ ⟨c, hc, rfl⟩
  exact List.forall_mem_singleton.mpr (h c hc)

theorem manyOf_le_manyOf (h : ∀ c, p c = true → q c = true) : manyOf p ≤ manyOf q :=
  fun _ hw c hc => h c (hw c hc)

theorem mul_le_manyOf (hA : A ≤ manyOf p) (hB : B ≤ manyOf p) : A * B ≤ manyOf p := by
  rintro _ ⟨a, ha, b, hb, rfl⟩
  exact List.forall_mem_append.mpr ⟨hA ha, hB hb⟩

theorem add_le_manyOf (hA : A ≤ manyOf p) (hB : B ≤ manyOf p) : A + B ≤ manyOf p := by
  rintro w (hw | hw)
  · exact hA hw
  · exact hB hw

/-! ## First characters -/

theorem head_oneOf_mul (h : c :: u ∈ oneOf p * B) : p c = true := by
  obtain ⟨_, ⟨d, hd, rfl⟩, b, -, heq⟩ := h
  cases heq
  exact hd

theorem head_optional (h : c :: u ∈ 1 + oneOf p) : p c = true := by
  rcases h with h | ⟨d, hd, heq⟩
  · cases h
  · cases heq
    exact hd

theorem head_optional_mul (h : c :: u ∈ 1 + oneOf p * B) : p c = true := by
  rcases h with h | h
  · cases h
  · exact head_oneOf_mul h

theorem head_mul (h : c :: u ∈ A * B) : (∃ v, c :: v ∈ A) ∨ c :: u ∈ B := by
  obtain ⟨a, ha, b, hb, heq⟩ := h
  cases a with
  | nil => exact .inr (heq ▸ hb)
  | cons d a =>
    cases heq
    exact .inl ⟨a, ha⟩

/-! ## Parts of words -/

/-- Of two first parts the shorter cannot end where the other goes on. -/
theorem eq_nil_of_mul {more b : List Char} (hA : A ≤ manyOf p)
    (hB : ∀ c u, c :: u ∈ B → p c = false) (ha : u ++ more ∈ A) (hb : b ∈ B)
    (h : b <+: more ++ w) : more = [] ∨ b = [] := by
  cases more with
  | nil => exact .inl rfl
  | cons c more =>
    cases b with
    | nil => exact .inr rfl
    | cons d b =>
      obtain ⟨rfl, -⟩ := List.cons_prefix_cons.mp h
      have hd : p d = true := hA ha d (by simp)
      rw [hB d b hb] at hd
      cases hd

/-- **A word falls into its parts in one way**, if nothing that the first part may hold begins the
second. -/
theorem mul_inj {a a' b b' : List Char} (hA : A ≤ manyOf p)
    (hB : ∀ c u, c :: u ∈ B → p c = false) (ha : a ∈ A) (ha' : a' ∈ A) (hb : b ∈ B) (hb' : b' ∈ B)
    (h : a ++ b = a' ++ b') : a = a' ∧ b = b' := by
  rcases List.append_eq_append_iff.mp h with ⟨more, rfl, hmore⟩ | ⟨more, rfl, hmore⟩
  · rcases eq_nil_of_mul hA hB ha' hb ⟨[], by rw [hmore, List.append_nil]⟩ with rfl | rfl
    · exact ⟨(List.append_nil a).symm, hmore⟩
    · obtain ⟨rfl, rfl⟩ := List.append_eq_nil_iff.mp hmore.symm
      exact ⟨(List.append_nil a).symm, rfl⟩
  · rcases eq_nil_of_mul hA hB ha hb' ⟨[], by rw [hmore, List.append_nil]⟩ with rfl | rfl
    · exact ⟨List.append_nil a', hmore.symm⟩
    · obtain ⟨rfl, rfl⟩ := List.append_eq_nil_iff.mp hmore.symm
      exact ⟨List.append_nil a', rfl⟩

/-- So parts of a word belong to languages of parts exactly when the word belongs to their product. -/
theorem append_mem_mul_iff {M N : Language Char} {a b : List Char} (hM : M ≤ manyOf p)
    (hN : ∀ c u, c :: u ∈ N → p c = false) (hA : A ≤ M) (hB : B ≤ N) (ha : a ∈ M) (hb : b ∈ N) :
    a ++ b ∈ A * B ↔ a ∈ A ∧ b ∈ B := by
  constructor
  · rintro ⟨a', ha', b', hb', heq⟩
    obtain ⟨rfl, rfl⟩ := mul_inj hM hN (hA ha') ha (hB hb') hb heq
    exact ⟨ha', hb'⟩
  · rintro ⟨ha', hb'⟩
    exact Language.append_mem_mul ha' hb'

/-- The longest of the words of a language with which `cs` begins, and what stands behind it. -/
structure IsLongest (A : Language Char) (word rest cs : List Char) : Prop where
  append : word ++ rest = cs
  mem : word ∈ A
  longest : ∀ w ∈ A, w <+: cs → w <+: word

end Fieldwise
