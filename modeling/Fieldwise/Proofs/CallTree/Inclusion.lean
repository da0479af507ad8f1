import Fieldwise.Proofs.CallTree.Union
import Mathlib.Order.Bounds.Basic
import Mathlib.Order.Lattice

/-!
# Unions of call trees as least upper bounds

* `CallTree.Within` : every part of one tree is in another one, recursively.
* `OrderedTree` : call trees as they are kept, with their fields in order. Inclusion is a partial
  order on them, with the empty tree at the bottom.
* `CallTree.within_merge_left`, `within_merge_right`, `merge_within` : the union of two trees is the
  least tree that includes both, so that `OrderedTree` is a semilattice.
* `OrderedTree.foldl_merge_le_iff` : what a sequence of unions comes to depends on the set of its
  parts only.
* `CallTree.merge_assoc`, `CallTree.empty_merge` : the laws of the semilattice for trees without
  the proof of their order.
-/

set_option autoImplicit false

namespace Fieldwise

namespace CallTree

/-- Induction over call trees, step by step: what holds of a tree when it holds of the tree below
each step, holds of all trees. -/
theorem child_induct {motive : CallTree → Prop}
    (step : ∀ t : CallTree, (∀ s c, t.child? s = some c → motive c) → motive t) (t : CallTree) :
    motive t := by
  induction t with
  | step t ihElement ihMembers =>
    refine step t fun s c hc => ?_
    cases s with
    | element => exact ihElement c hc
    | field key =>
      obtain ⟨before, behind, hmembers, -⟩ := List.lookup_eq_some_iff.mp hc
      exact ihMembers (key, c) (by simp [hmembers])

/-! ## Inclusion -/

/-- Every part of the one tree is in the other: that it is drilled into, its elements and each of
its fields, and so on below each of them. -/
inductive Within : CallTree → CallTree → Prop
  | intro {s t : CallTree} (fields : s.fields.isSome = true → t.fields.isSome = true)
    (steps : ∀ step, (s.child? step).isSome = true → (t.child? step).isSome = true)
    (below : ∀ step c d, s.child? step = some c → t.child? step = some d → Within c d) :
    Within s t

variable {s t u : CallTree}

theorem within_iff :
    s.Within t ↔ (s.fields.isSome = true → t.fields.isSome = true) ∧
      ∀ step c, s.child? step = some c → ∃ d, t.child? step = some d ∧ c.Within d := by
  constructor
  · rintro ⟨hfields, hsteps, hbelow⟩
    refine ⟨hfields, fun step c hc => ?_⟩
    obtain ⟨d, hd⟩ := Option.isSome_iff_exists.mp (hsteps step (by rw [hc]; rfl))
    exact ⟨d, hd, hbelow step c d hc hd⟩
  · rintro ⟨hfields, h⟩
    refine .intro hfields (fun step hs => ?_) fun step c d hc hd => ?_
    · obtain ⟨c, hc⟩ := Option.isSome_iff_exists.mp hs
      obtain ⟨d, hd, -⟩ := h step c hc
      rw [hd]
      rfl
    · obtain ⟨d', hd', hwithin⟩ := h step c hc
      obtain rfl : d' = d := Option.some.inj (hd'.symm.trans hd)
      exact hwithin

theorem Within.refl (t : CallTree) : t.Within t := by
  induction t using child_induct with
  | step t ih => exact within_iff.mpr ⟨id, fun step c hc => ⟨c, hc, ih step c hc⟩⟩

theorem Within.trans (h : s.Within t) (h' : t.Within u) : s.Within u := by
  induction s using child_induct generalizing t u with
  | step s ih =>
    obtain ⟨hfields, hbelow⟩ := within_iff.mp h
    obtain ⟨hfields', hbelow'⟩ := within_iff.mp h'
    refine within_iff.mpr ⟨hfields' ∘ hfields, fun step c hc => ?_⟩
    obtain ⟨d, hd, hcd⟩ := hbelow step c hc
    obtain ⟨e, he, hde⟩ := hbelow' step d hd
    exact ⟨e, he, ih step c hc hcd hde⟩

/-- **Two ordered trees that include each other are equal.** -/
theorem Within.antisymm (hs : s.Ordered) (ht : t.Ordered) (h : s.Within t) (h' : t.Within s) :
    s = t := by
  induction s using child_induct generalizing t with
  | step s ih =>
    obtain ⟨hfields, hbelow⟩ := within_iff.mp h
    obtain ⟨hfields', hbelow'⟩ := within_iff.mp h'
    refine ext hs ht (Bool.eq_iff_iff.mpr ⟨hfields, hfields'⟩) fun step => ?_
    cases hc : s.child? step with
    | none =>
      cases hd : t.child? step with
      | none => rfl
      | some d =>
        obtain ⟨c, hc', -⟩ := hbelow' step d hd
        rw [hc] at hc'
        cases hc'
    | some c =>
      obtain ⟨d, hd, hcd⟩ := hbelow step c hc
      obtain ⟨c', hc', hdc⟩ := hbelow' step d hd
      obtain rfl : c = c' := Option.some.inj (hc.symm.trans hc')
      rw [hd, ih step c hc (hs.child hc) (ht.child hd) hcd hdc]

theorem empty_within (t : CallTree) : empty.Within t :=
  within_iff.mpr ⟨fun h => (nomatch h), fun step c hc => by
    rw [child?_empty] at hc
    cases hc⟩

/-! ## The union as least upper bound -/

/-- A union includes its first tree. -/
theorem within_merge_left (hs : s.Ordered) (ht : t.Ordered) : s.Within (s.merge t) := by
  induction t using child_induct generalizing s with
  | step t ih =>
    refine within_iff.mpr ⟨fun h => isSome_fields_merge.mpr (.inl h), fun step c hc => ?_⟩
    rw [child?_merge hs ht, hc]
    cases hd : t.child? step with
    | none => exact ⟨c, rfl, .refl c⟩
    | some d => exact ⟨c.merge d, rfl, ih step d hd (hs.child hc) (ht.child hd)⟩

/-- A union includes its second tree. -/
theorem within_merge_right (hs : s.Ordered) (ht : t.Ordered) : t.Within (s.merge t) := by
  induction t using child_induct generalizing s with
  | step t ih =>
    refine within_iff.mpr ⟨fun h => isSome_fields_merge.mpr (.inr h), fun step d hd => ?_⟩
    rw [child?_merge hs ht, hd]
    cases hc : s.child? step with
    | none => exact ⟨d, rfl, .refl d⟩
    | some c => exact ⟨c.merge d, rfl, ih step d hd (hs.child hc) (ht.child hd)⟩

/-- **A tree that includes two trees includes their union.** -/
theorem merge_within (hs : s.Ordered) (ht : t.Ordered) (h : s.Within u) (h' : t.Within u) :
    (s.merge t).Within u := by
  induction t using child_induct generalizing s u with
  | step t ih =>
    obtain ⟨hfields, hbelow⟩ := within_iff.mp h
    obtain ⟨hfields', hbelow'⟩ := within_iff.mp h'
    refine within_iff.mpr ⟨fun hmerge => ?_, fun step e he => ?_⟩
    · exact (isSome_fields_merge.mp hmerge).elim hfields hfields'
    · rw [child?_merge hs ht, mergeElement_eq_some] at he
      rcases he with ⟨hc, -⟩ | ⟨-, hd⟩ | ⟨c, d, hc, hd, rfl⟩
      · exact hbelow step e hc
      · exact hbelow' step e hd
      · obtain ⟨f, hf, hcf⟩ := hbelow step c hc
        obtain ⟨f', hf', hdf⟩ := hbelow' step d hd
        obtain rfl : f = f' := Option.some.inj (hf.symm.trans hf')
        exact ⟨f, hf, ih step d hd (hs.child hc) (ht.child hd) hcf hdf⟩

end CallTree

/-! ## The semilattice -/

/-- A call tree with its fields in order everywhere. -/
abbrev OrderedTree : Type :=
  { t : CallTree // t.Ordered }

namespace OrderedTree

/-- The tree that uses its root only. -/
def empty : OrderedTree :=
  ⟨.empty, CallTree.ordered_empty⟩

/-- The tree of a single path. -/
def ofPath (path : List Step) : OrderedTree :=
  ⟨.ofPath path, (CallTree.Adds.ofPath path).ordered CallTree.ordered_empty⟩

/-- The union of two trees. -/
def merge (s t : OrderedTree) : OrderedTree :=
  ⟨s.1.merge t.1, CallTree.ordered_merge t.1 s.1 s.2 t.2⟩

instance : PartialOrder OrderedTree where
  le s t := s.1.Within t.1
  le_refl t := .refl t.1
  le_trans _ _ _ h h' := h.trans h'
  le_antisymm s t h h' := Subtype.ext (h.antisymm s.2 t.2 h')

instance : SemilatticeSup OrderedTree where
  sup := merge
  le_sup_left s t := CallTree.within_merge_left s.2 t.2
  le_sup_right s t := CallTree.within_merge_right s.2 t.2
  sup_le s t _ h h' := CallTree.merge_within s.2 t.2 h h'

instance : OrderBot OrderedTree where
  bot := empty
  bot_le t := CallTree.empty_within t.1

/-- What a sequence of unions comes to is included where all of its parts are. -/
theorem foldl_merge_le_iff (ts : List OrderedTree) (s u : OrderedTree) :
    ts.foldl merge s ≤ u ↔ s ≤ u ∧ ∀ t ∈ ts, t ≤ u := by
  induction ts generalizing s with
  | nil => simp
  | cons t ts ih =>
    have hmerge : s.merge t ≤ u ↔ s ≤ u ∧ t ≤ u := sup_le_iff
    rw [List.foldl_cons, ih, hmerge, List.forall_mem_cons, and_assoc]

/-- **Union is the join of a semilattice**: associative, commutative and idempotent, with the empty
tree as its unit, and the union of two trees is the least tree that includes both. So a sequence of
unions comes to the same whatever the order and repetition of its parts. -/
theorem merge_isJoin (a b c : OrderedTree) :
    (a.merge b).merge c = a.merge (b.merge c) ∧ a.merge b = b.merge a ∧ a.merge a = a ∧
      empty.merge a = a ∧ a.merge empty = a ∧ IsLUB {a, b} (a.merge b) ∧
        ∀ ts us : List OrderedTree, (∀ t, t ∈ ts ↔ t ∈ us) →
          ts.foldl merge a = us.foldl merge a := by
  refine ⟨sup_assoc a b c, sup_comm a b, sup_idem a, bot_sup_eq a, sup_bot_eq a, isLUB_pair,
    fun ts us h => ?_⟩
  refine eq_of_forall_ge_iff fun u => ?_
  rw [foldl_merge_le_iff, foldl_merge_le_iff]
  simp only [h]

/-- One field is iterated and drilled into, in either order and more than once. -/
theorem merge_isJoin_conflict :
    [ofPath [.field "a", .element], ofPath [.field "a", .field "b"],
        ofPath [.field "a", .element]].foldl merge empty =
      [ofPath [.field "a", .field "b"], ofPath [.field "a", .element]].foldl merge empty :=
  (merge_isJoin empty empty empty).2.2.2.2.2.2 _ _ fun t => by
    simp [or_comm]

end OrderedTree

namespace CallTree

variable {s t u : CallTree}

theorem merge_assoc (hs : s.Ordered) (ht : t.Ordered) (hu : u.Ordered) :
    (s.merge t).merge u = s.merge (t.merge u) :=
  congrArg Subtype.val (sup_assoc (⟨s, hs⟩ : OrderedTree) ⟨t, ht⟩ ⟨u, hu⟩)

theorem empty_merge (ht : t.Ordered) : empty.merge t = t :=
  congrArg Subtype.val (bot_sup_eq (⟨t, ht⟩ : OrderedTree))

end CallTree

end Fieldwise
