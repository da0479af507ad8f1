import Fieldwise.Proofs.CallTree.Paths

/-!
# Unions of call trees, as equations

Call trees whose fields are in order are determined by what can be looked up in them, and a union
is looked up by looking up both sides.

* `CallTree.lookup_mergeEntries` : a look-up in united fields unites the two look-ups.
* `CallTree.child?_merge` : so what a union has below a step unites what both trees have there.
-/

set_option autoImplicit false

namespace Fieldwise

namespace CallTree

/-- **Ordered trees are equal when both are drilled into or neither is, and they have the same tree
below each step.** -/
theorem ext {s t : CallTree} (hs : s.Ordered) (ht : t.Ordered)
    (hfields : s.fields.isSome = t.fields.isSome) (h : ∀ step, s.child? step = t.child? step) :
    s = t := by
  have hmembers : s.members = t.members :=
    Keyed.ext (ordered_iff.mp hs).2.1 (ordered_iff.mp ht).2.1 fun key => h (.field key)
  obtain ⟨e, fs⟩ := s
  obtain ⟨e', fs'⟩ := t
  obtain rfl : e = e' := h .element
  cases fs <;> cases fs' <;> simp_all

/-! ## Looking up in a union -/

@[simp] theorem mergeElement_none (t : Option CallTree) : mergeElement none t = t := by
  cases t <;> rfl

@[simp] theorem mergeElement_none_right (s : Option CallTree) : mergeElement s none = s := rfl

theorem lookup_mergeEntry {s : List (String × CallTree)} (hs : Keyed.Ordered s) (key k : String)
    (t : CallTree) :
    (mergeEntry s (key, t)).lookup k = mergeElement (s.lookup k) ([(key, t)].lookup k) := by
  rw [mergeEntry]
  by_cases hk : k = key
  · subst hk
    rw [Keyed.lookup_update_self _ _ _ hs]
    cases h : s.lookup k <;> simp [mergeElement]
  · have hbeq : (k == key) = false := by simpa using hk
    rw [Keyed.lookup_update_of_ne hk]
    simp [List.lookup_cons, hbeq]

/-- **A look-up in united fields unites the two look-ups.** -/
theorem lookup_mergeEntries (key : String) :
    ∀ (fs : List (String × CallTree)) {s : List (String × CallTree)}, Keyed.Ordered s →
      Keyed.Ordered fs →
      (mergeEntries s fs).lookup key = mergeElement (s.lookup key) (fs.lookup key)
  | [], _, _, _ => rfl
  | (k, t) :: rest, s, hs, hfs => by
    have hentry : Keyed.Ordered (mergeEntry s (k, t)) := Keyed.ordered_update _ _ hs
    rw [mergeEntries, lookup_mergeEntries key rest hentry hfs.tail, lookup_mergeEntry hs]
    by_cases hk : key = k
    · subst hk
      simp [hfs.lookup_tail]
    · have hbeq : (key == k) = false := by simpa using hk
      simp [List.lookup_cons, hbeq]

/-- **What a union has below a step unites what both trees have there.** -/
theorem child?_merge {s t : CallTree} (hs : s.Ordered) (ht : t.Ordered) (step : Step) :
    (s.merge t).child? step = mergeElement (s.child? step) (t.child? step) := by
  cases step with
  | element => exact element_merge s t
  | field key =>
    rw [child?_field, members_merge]
    exact lookup_mergeEntries key _ (ordered_iff.mp hs).2.1 (ordered_iff.mp ht).2.1

theorem isSome_fields_merge {s t : CallTree} :
    (s.merge t).fields.isSome = true ↔ s.fields.isSome = true ∨ t.fields.isSome = true := by
  rw [fields_merge]
  cases t.fields <;> simp [mergeFields]

@[simp] theorem merge_empty (t : CallTree) : t.merge empty = t := by
  obtain ⟨_, _⟩ := t
  rfl

end CallTree

end Fieldwise
