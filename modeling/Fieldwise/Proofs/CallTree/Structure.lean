import Fieldwise.CallTree.Basic
import Fieldwise.Proofs.Keyed

/-!
# Call trees through their accessors

* `CallTree.induct` : induction over trees, through the elements and the fields of a node.
* `forall_mem_mergeEntries`, `exists_mem_mergeEntries` : what holds of all fields of a union, or
  of one of them, read off the two sides.
* `element_merge`, `members_merge_eq_nil` : how the union of two trees is used at its root.

Neither needs the fields to be in order: a union changes the first field under a name or adds
one, and every other field stays.
-/

set_option autoImplicit false

namespace Fieldwise

namespace CallTree

/-! ## Induction -/

/-- **Induction over call trees**: what holds of a tree when it holds of the tree of its elements
and of the tree of each of its fields, holds of all trees. -/
@[induction_eliminator]
theorem induct {motive : CallTree → Prop}
    (step : ∀ t : CallTree, (∀ e, t.element = some e → motive e) →
      (∀ entry ∈ t.members, motive entry.2) → motive t) :
    ∀ t, motive t := fun t =>
  CallTree.rec (motive_1 := motive) (motive_2 := fun element => ∀ e, element = some e → motive e)
    (motive_3 := fun fields => ∀ entry ∈ fields.getD [], motive entry.2)
    (motive_4 := fun entries => ∀ entry ∈ entries, motive entry.2)
    (motive_5 := fun entry => motive entry.2)
    (fun element fields ihElement ihFields => step (node element fields) ihElement ihFields)
    (fun _ h => nomatch h)
    (fun _ ih _ h => Option.some.inj h ▸ ih)
    (fun _ h => nomatch h)
    (fun _ ih => ih)
    (fun _ h => nomatch h)
    (fun _ _ ihEntry ihRest => List.forall_mem_cons.mpr ⟨ihEntry, ihRest⟩)
    (fun _ _ ih => ih)
    t

/-! ## The accessors of a node -/

@[simp] theorem members_node (e : Option CallTree) (fs : Option (List (String × CallTree))) :
    (node e fs).members = fs.getD [] := rfl

@[simp] theorem members_empty : empty.members = [] := rfl

/-- The tree one step below the root. -/
def child? (t : CallTree) : Step → Option CallTree
  | .element => t.element
  | .field key => t.members.lookup key

@[simp] theorem child?_element (t : CallTree) : t.child? .element = t.element := rfl

@[simp] theorem child?_field (t : CallTree) (key : String) :
    t.child? (.field key) = t.members.lookup key := rfl

@[simp] theorem child?_empty (step : Step) : empty.child? step = none := by
  cases step <;> rfl

/-- A path is read one step after another. -/
theorem get?_cons (t : CallTree) (step : Step) (path : List Step) :
    t.get? (step :: path) = (t.child? step).bind fun c => c.get? path := by
  cases step with
  | element => cases h : t.element <;> simp [get?, h]
  | field key => cases h : t.members.lookup key <;> simp [get?, h]

@[simp] theorem ofPath_nil : ofPath [] = empty := rfl

@[simp] theorem ofPath_element (path : List Step) :
    ofPath (.element :: path) = node (some (ofPath path)) none := rfl

@[simp] theorem ofPath_field (key : String) (path : List Step) :
    ofPath (.field key :: path) = node none (some [(key, ofPath path)]) := rfl

theorem isLeaf_iff {t : CallTree} : t.isLeaf = true ↔ t.element = none ∧ t.members = [] := by
  obtain ⟨_ | e, _ | _ | ⟨f, fs⟩⟩ := t <;> simp [isLeaf, facets]

theorem allConsistent_iff (entries : List (String × CallTree)) :
    allConsistent entries = true ↔ ∀ entry ∈ entries, entry.2.isConsistent = true := by
  induction entries with
  | nil => simp [allConsistent]
  | cons entry rest ih =>
    obtain ⟨key, t⟩ := entry
    simp [allConsistent, entryConsistent, ih]

/-- Consistent: not used in both ways at the root, nor anywhere below. -/
theorem isConsistent_iff {t : CallTree} :
    t.isConsistent = true ↔
      (t.element = none ∨ t.members = []) ∧ (∀ e, t.element = some e → e.isConsistent = true) ∧
        ∀ entry ∈ t.members, entry.2.isConsistent = true := by
  obtain ⟨_ | e, _ | fs⟩ := t
  · simp [isConsistent]
  · simp [isConsistent, allConsistent_iff]
  · simp [isConsistent]
  · simp only [isConsistent, Bool.and_eq_true, List.isEmpty_iff, element_node, members_node,
      Option.getD_some, reduceCtorEq, false_or, Option.some.injEq, forall_eq']
    constructor
    · rintro ⟨rfl, he⟩
      exact ⟨rfl, he, by simp⟩
    · rintro ⟨hfs, he, _⟩
      exact ⟨hfs, he⟩

/-! ## The union of two trees -/

@[simp] theorem element_merge (s t : CallTree) :
    (s.merge t).element = mergeElement s.element t.element := by
  obtain ⟨e, fs⟩ := t
  simp [merge]

@[simp] theorem fields_merge (s t : CallTree) :
    (s.merge t).fields = mergeFields s.fields t.fields := by
  obtain ⟨e, fs⟩ := t
  simp [merge]

theorem mergeElement_eq_some {s t : Option CallTree} {u : CallTree} :
    mergeElement s t = some u ↔
      (s = some u ∧ t = none) ∨ (s = none ∧ t = some u) ∨
        ∃ a b, s = some a ∧ t = some b ∧ a.merge b = u := by
  cases s <;> cases t <;> simp [mergeElement]

theorem mergeElement_eq_none {s t : Option CallTree} :
    mergeElement s t = none ↔ s = none ∧ t = none := by
  cases s <;> cases t <;> simp [mergeElement]

/-- The fields of a union are the fields of the one tree with those of the other merged in. -/
theorem members_merge (s t : CallTree) :
    (s.merge t).members = mergeEntries s.members t.members := by
  obtain ⟨e, _ | fs⟩ := t
  · simp [members, mergeFields, mergeEntries]
  · simp [members, mergeFields]

variable {P : String × CallTree → Prop}

/-- What holds of all fields of a union, when it passes from two trees to their union and
back. -/
theorem forall_mem_mergeEntries :
    ∀ (fs s : List (String × CallTree)),
      (∀ entry ∈ fs, ∀ t, P (entry.1, t.merge entry.2) ↔ P (entry.1, t) ∧ P entry) →
      ((∀ entry ∈ mergeEntries s fs, P entry) ↔ (∀ entry ∈ s, P entry) ∧ ∀ entry ∈ fs, P entry)
  | [], s, _ => by simp [mergeEntries]
  | (key, t) :: rest, s, h => by
    obtain ⟨hentry, hrest⟩ := List.forall_mem_cons.mp h
    have hupdate : (∀ entry ∈ mergeEntry s (key, t), P entry) ↔
        (∀ entry ∈ s, P entry) ∧ P (key, t) :=
      Keyed.forall_mem_update Iff.rfl s fun v _ => hentry v
    rw [mergeEntries, forall_mem_mergeEntries rest _ hrest, hupdate, List.forall_mem_cons,
      and_assoc]

/-- What holds of one field of a union, when it passes from either of two trees to their union
and back. -/
theorem exists_mem_mergeEntries (fs s : List (String × CallTree))
    (h : ∀ entry ∈ fs, ∀ t, P (entry.1, t.merge entry.2) ↔ P (entry.1, t) ∨ P entry) :
    (∃ entry ∈ mergeEntries s fs, P entry) ↔ (∃ entry ∈ s, P entry) ∨ ∃ entry ∈ fs, P entry := by
  have hforall := forall_mem_mergeEntries (P := fun entry => ¬ P entry) fs s
    fun entry hentry t => (not_congr (h entry hentry t)).trans not_or
  rw [← not_iff_not, not_or]
  simpa only [not_exists, not_and] using hforall

theorem members_merge_eq_nil (s t : CallTree) :
    (s.merge t).members = [] ↔ s.members = [] ∧ t.members = [] := by
  rw [members_merge]
  have h := forall_mem_mergeEntries (P := fun _ => False) t.members s.members
    fun _ _ _ => (and_self_iff).symm
  simpa only [imp_false, ← List.eq_nil_iff_forall_not_mem] using h

end CallTree

end Fieldwise
