import Fieldwise.Text.Lowercase
import Mathlib.Data.List.Basic

/-!
# Lower case stays as it is

* `CaseRun.leaves` : no character that one run of the table produces is changed by another run, and
  `lowercaseRuns_leave` : this holds of every two runs.
* `IsLowered` : a character that is its own lower case wherever it stands, and
  `isLowered_of_mem_lowerChar` : the lower case of a character consists of such characters.
* `lowercase_lowercase` : so a text in lower case stays as it is.

That one run leaves alone what another produces is told from their ends: either the code points
lie apart, or both go through every second one and never meet.
-/

set_option autoImplicit false

namespace Fieldwise.Text

/-! ## The table -/

namespace CaseRun

/-- The last code point that a run may produce. -/
def lastTarget (run : CaseRun) : Nat :=
  run.target + (run.last - run.first)

/-- The ends of the runs show that `other` changes nothing that `run` produces. -/
def leaves (run other : CaseRun) : Bool :=
  run.lastTarget.blt other.first || other.last.blt run.target ||
    (other.step.beq 2 && (run.step.beq 2 || run.last.beq run.first) &&
      ((run.target + other.first) % 2).beq 1)

/-- What a run produces are characters, none of them one of the special ones. The only basic
character among them is the small k that the sign for kelvin becomes. -/
def IsProper (run : CaseRun) : Prop :=
  (run.lastTarget < 0xD800 ∨ (0xDFFF < run.target ∧ run.lastTarget < 0x110000)) ∧
    (run.lastTarget < 0x130 ∨ 0x130 < run.target) ∧
    (run.lastTarget < 0x3A3 ∨ 0x3A3 < run.target) ∧
    (128 ≤ run.target ∨ (run.target = 'k'.toNat ∧ run.last = run.first))

instance (run : CaseRun) : Decidable run.IsProper :=
  inferInstanceAs (Decidable (_ ∧ _ ∧ _ ∧ _))

variable {run other : CaseRun} {c d : Char}

theorem sends_iff : run.apply? c = some d ↔
    (run.first ≤ c.toNat ∧ c.toNat ≤ run.last ∧ (c.toNat - run.first) % run.step = 0) ∧
      Char.ofNat (run.target + (c.toNat - run.first)) = d := by
  unfold CaseRun.apply?
  simp [and_assoc]

/-- Where in a run a produced character lies. -/
theorem exists_of_sends (hrun : run.IsProper) (h : run.apply? c = some d) :
    ∃ k, k ≤ run.last - run.first ∧ k % run.step = 0 ∧ d.toNat = run.target + k := by
  obtain ⟨⟨hfirst, hlast, hstep⟩, rfl⟩ := sends_iff.mp h
  refine ⟨c.toNat - run.first, by omega, hstep, ?_⟩
  have hvalid : (run.target + (c.toNat - run.first)).isValidChar := by
    have hrange := hrun.1
    unfold lastTarget at hrange
    unfold Nat.isValidChar
    omega
  rw [Char.ofNat, dif_pos hvalid]
  rfl

/-- **What a run produces, no run that it leaves alone changes.** -/
theorem unchanged_of_leaves (hleaves : run.leaves other = true) (hrun : run.IsProper)
    (h : run.apply? c = some d) : other.apply? d = none := by
  obtain ⟨k, hk, hstep, hd⟩ := exists_of_sends hrun h
  rw [Option.eq_none_iff_forall_ne_some]
  intro e he
  obtain ⟨⟨hfirst, hlast, hother⟩, -⟩ := sends_iff.mp he
  rw [hd] at hfirst hlast hother
  simp only [leaves, lastTarget, Bool.or_eq_true, Bool.and_eq_true, Nat.blt_eq, Nat.beq_eq]
    at hleaves
  rcases hleaves with (hbefore | hbehind) | ⟨⟨htwo, hrunTwo⟩, hodd⟩
  · omega
  · omega
  · -- the code point differs from the start of the other run by an odd number
    have heven : k % 2 = 0 := by
      rcases hrunTwo with htwo | hone
      · rwa [htwo] at hstep
      · omega
    rw [htwo] at hother
    omega

end CaseRun

theorem lowercaseRuns_proper : ∀ run ∈ lowercaseRuns, run.IsProper := by
  decide +kernel

theorem lowercaseRuns_leave {run other : CaseRun} (hrun : run ∈ lowercaseRuns)
    (hother : other ∈ lowercaseRuns) : run.leaves other = true := by
  have hall : (lowercaseRuns.all fun run => lowercaseRuns.all run.leaves) = true := by
    decide +kernel
  exact List.all_eq_true.mp (List.all_eq_true.mp hall run hrun) other hother

/-! ## Characters -/

/-- The character is its own lower case wherever it stands. -/
def IsLowered (c : Char) : Prop :=
  lowerChar c = [c] ∧ c.toNat ≠ 0x3A3

instance (c : Char) : Decidable (IsLowered c) :=
  inferInstanceAs (Decidable (_ ∧ _))

/-- The small letter of a basic character stays as it is. -/
theorem isLowered_toLower {c : Char} (h : isBasic c = true) : IsLowered c.toLower := by
  have hall : ∀ n < 128, IsLowered (Char.ofNat n).toLower := by decide +kernel
  have hc := hall c.toNat (of_decide_eq_true h)
  rwa [Char.ofNat_toNat] at hc

/-- A character beyond the basic ones that no run changes. -/
theorem isLowered_of_forall_none {c : Char} (hbasic : isBasic c = false) (hdot : c.toNat ≠ 0x130)
    (hsigma : c.toNat ≠ 0x3A3) (h : ∀ run ∈ lowercaseRuns, run.apply? c = none) :
    IsLowered c := by
  have hnone : (lowercaseRuns.findSome? fun run => run.apply? c) = none :=
    List.findSome?_eq_none_iff.mpr h
  refine ⟨?_, hsigma⟩
  rw [lowerChar, hbasic, if_neg Bool.false_ne_true, if_neg (by simpa using hdot), hnone]
  rfl

/-- The dot above, which the capital I with a dot leaves behind, and the two small sigmas. -/
theorem isLowered_special : IsLowered '\u0307' ∧ IsLowered 'ς' ∧ IsLowered 'σ' := by
  have hfree : ∀ c : Char, (lowercaseRuns.findSome? fun run => run.apply? c).isNone = true →
      ∀ run ∈ lowercaseRuns, run.apply? c = none := fun c h =>
    List.findSome?_eq_none_iff.mp (Option.isNone_iff_eq_none.mp h)
  have hdot := hfree '\u0307' (by decide +kernel)
  have hfinal := hfree 'ς' (by decide +kernel)
  have hsmall := hfree 'σ' (by decide +kernel)
  exact ⟨isLowered_of_forall_none rfl (by decide) (by decide) hdot,
    isLowered_of_forall_none rfl (by decide) (by decide) hfinal,
    isLowered_of_forall_none rfl (by decide) (by decide) hsmall⟩

/-- **The lower case of a character consists of characters that stay as they are.** -/
theorem isLowered_of_mem_lowerChar {c d : Char} (hsigma : c.toNat ≠ 0x3A3)
    (h : d ∈ lowerChar c) : IsLowered d := by
  unfold lowerChar at h
  split at h
  · next hbasic =>
    rw [List.mem_singleton.mp h]
    exact isLowered_toLower hbasic
  next hbasic =>
  split at h
  · have hi : IsLowered 'i' := isLowered_toLower (c := 'i') rfl
    have hboth : ∀ d ∈ ['i', '\u0307'], IsLowered d := by
      simp only [List.forall_mem_cons]
      exact ⟨hi, isLowered_special.1, nofun⟩
    exact hboth d h
  next hdot =>
  rw [List.mem_singleton.mp h]
  cases hfind : lowercaseRuns.findSome? fun run => run.apply? c with
  | none =>
    exact isLowered_of_forall_none (Bool.eq_false_iff.mpr hbasic) (by simpa using hdot) hsigma
      (List.findSome?_eq_none_iff.mp hfind)
  | some e =>
    obtain ⟨run, hrun, happly⟩ := List.exists_of_findSome?_eq_some hfind
    have hproper := lowercaseRuns_proper run hrun
    obtain ⟨k, hk, -, he⟩ := CaseRun.exists_of_sends hproper happly
    obtain ⟨-, hdots, hsigmas, hsmall⟩ := hproper
    unfold CaseRun.lastTarget at hdots hsigmas
    show IsLowered e
    rcases hsmall with hlarge | ⟨hkelvin, hone⟩
    · have hbeyond : isBasic e = false := by
        simp only [isBasic, decide_eq_false_iff_not]
        omega
      have hnoDot : e.toNat ≠ 0x130 := by omega
      have hnoSigma : e.toNat ≠ 0x3A3 := by omega
      exact isLowered_of_forall_none hbeyond hnoDot hnoSigma fun other hother =>
        CaseRun.unchanged_of_leaves (lowercaseRuns_leave hrun hother) (lowercaseRuns_proper run hrun)
          happly
    · have hk : e = 'k' := Char.toNat_inj.mp (by omega)
      rw [hk]
      exact isLowered_toLower (c := 'k') rfl

/-! ## Texts -/

/-- The lower case of a text consists of characters that stay as they are. -/
theorem isLowered_of_mem_lowerAfter {d : Char} : ∀ (cs before : List Char),
    d ∈ lowerAfter before cs → IsLowered d
  | [], _, h => by cases h
  | c :: cs, before, h => by
    rw [lowerAfter] at h
    split at h
    · rcases List.mem_cons.mp h with rfl | h
      · split
        · exact isLowered_special.2.1
        · exact isLowered_special.2.2
      · exact isLowered_of_mem_lowerAfter cs _ h
    · next hsigma =>
      rcases List.mem_append.mp h with h | h
      · exact isLowered_of_mem_lowerChar (by simpa using hsigma) h
      · exact isLowered_of_mem_lowerAfter cs _ h

/-- Where every character stays as it is, so does the text. -/
theorem lowerAfter_eq_self : ∀ (cs before : List Char), (∀ c ∈ cs, IsLowered c) →
    lowerAfter before cs = cs
  | [], _, _ => rfl
  | c :: cs, before, h => by
    obtain ⟨⟨hc, hsigma⟩, hcs⟩ := List.forall_mem_cons.mp h
    rw [lowerAfter, if_neg (by simpa using hsigma), hc, lowerAfter_eq_self cs _ hcs]
    rfl

/-- **A text in lower case stays as it is.** -/
theorem lowercase_lowercase (s : String) : lowercase (lowercase s) = lowercase s := by
  unfold lowercase
  rw [String.toList_ofList, lowerAfter_eq_self _ _ fun c => isLowered_of_mem_lowerAfter _ _]

end Fieldwise.Text
