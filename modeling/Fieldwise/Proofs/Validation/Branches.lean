import Fieldwise.Proofs.Validation.Walk

/-!
# Checking a tree branch by branch

* `CallTree.branches` : the paths from the root of a tree to its leaves.
* `Catalog.mem_mismatches_list`, `Catalog.mem_mismatches_record` : what the walk reports at a
  place that is only iterated, and at a place that is only drilled into.
* `Catalog.mem_validate_iff_branch` : a consistent tree and the trees of its single branches are
  reported the same mismatches.

A place that is iterated and drilled into is reported once, whereas its branches are walked
apart. So consistency cannot be left out: see `conflict_not_branchwise`.
-/

set_option autoImplicit false

namespace Fieldwise

namespace CallTree

/-! ## Branches -/

mutual

/-- The paths from the root to the leaves. -/
def branches : CallTree → List (List Step)
  | node element fields =>
    if (node element fields).isLeaf then [[]]
    else elementBranches element ++ fieldsBranches fields
termination_by structural t => t

/-- The branches through the elements. -/
def elementBranches : Option CallTree → List (List Step)
  | none => []
  | some t => t.branches.map (.element :: ·)
termination_by structural t => t

/-- The branches through the fields. -/
def fieldsBranches : Option (List (String × CallTree)) → List (List Step)
  | none => []
  | some fs => entriesBranches fs
termination_by structural fs => fs

/-- The branches through several fields. -/
def entriesBranches : List (String × CallTree) → List (List Step)
  | [] => []
  | entry :: rest => entryBranches entry ++ entriesBranches rest
termination_by structural fs => fs

/-- The branches through one field. -/
def entryBranches : String × CallTree → List (List Step)
  | (key, t) => t.branches.map (.field key :: ·)
termination_by structural entry => entry

end

theorem entriesBranches_eq (entries : List (String × CallTree)) :
    entriesBranches entries =
      entries.flatMap fun entry => entry.2.branches.map (.field entry.1 :: ·) := by
  induction entries with
  | nil => rfl
  | cons entry rest ih =>
    obtain ⟨key, t⟩ := entry
    rw [entriesBranches, ih, List.flatMap_cons, entryBranches]

theorem branches_eq (t : CallTree) :
    t.branches =
      if t.isLeaf then [[]]
      else
        (t.element.toList.flatMap fun e => e.branches.map (.element :: ·)) ++
          t.members.flatMap fun entry => entry.2.branches.map (.field entry.1 :: ·) := by
  obtain ⟨element, fields⟩ := t
  rw [branches]
  cases element <;> cases fields <;>
    simp [elementBranches, fieldsBranches, entriesBranches_eq]

theorem branches_list {t e : CallTree} (he : t.element = some e) (hm : t.members = []) :
    t.branches = e.branches.map (.element :: ·) := by
  have hleaf : ¬ t.isLeaf = true := by simp [isLeaf_iff, he]
  simp [branches_eq t, hleaf, he, hm]

theorem branches_record {t : CallTree} (he : t.element = none) (hm : t.members ≠ []) :
    t.branches = t.members.flatMap fun entry => entry.2.branches.map (.field entry.1 :: ·) := by
  have hleaf : ¬ t.isLeaf = true := by simp [isLeaf_iff, hm]
  simp [branches_eq t, hleaf, he]

/-- Every tree has a branch. -/
theorem exists_mem_branches (t : CallTree) : ∃ q, q ∈ t.branches := by
  induction t with
  | step t ihElement ihMembers =>
    rw [branches_eq]
    split
    · exact ⟨[], List.mem_singleton_self _⟩
    rename_i hleaf
    cases he : t.element with
    | some e =>
      obtain ⟨p, hp⟩ := ihElement e he
      exact ⟨.element :: p, List.mem_append_left _ (by simpa using hp)⟩
    | none =>
      obtain ⟨entry, hentry⟩ := List.exists_mem_of_ne_nil t.members fun hm =>
        hleaf (isLeaf_iff.mpr ⟨he, hm⟩)
      obtain ⟨p, hp⟩ := ihMembers entry hentry
      exact ⟨.field entry.1 :: p, List.mem_append_right _
        (List.mem_flatMap_of_mem hentry (List.mem_map_of_mem hp))⟩

/-- What does not depend on the branch holds when it holds for some branch. -/
theorem iff_exists_branch (t : CallTree) (p : Prop) : p ↔ ∃ q ∈ t.branches, p := by
  obtain ⟨q, hq⟩ := t.exists_mem_branches
  exact ⟨fun h => ⟨q, hq, h⟩, fun ⟨_, _, h⟩ => h⟩

/-! ## Consistent trees -/

/-- A consistent tree is a leaf, or only iterated, or only drilled into. -/
theorem isConsistent_cases {t : CallTree} (h : t.isConsistent = true) :
    t.isLeaf = true ∨ (∃ e, t.element = some e ∧ t.members = []) ∨
      (t.element = none ∧ t.members ≠ []) := by
  obtain ⟨hroot, -, -⟩ := isConsistent_iff.mp h
  rw [isLeaf_iff]
  cases he : t.element <;> cases hm : t.members <;> simp_all

end CallTree

namespace Catalog

variable {c : Catalog} {suggest : Suggester} {path : List Step} {type : TypeExpr} {m : Mismatch}

/-! ## One place -/

theorem mismatches_leaf {t : CallTree} (h : t.isLeaf = true) :
    c.mismatches suggest path type t = c.mismatches suggest path type .empty := by
  obtain ⟨he, hm⟩ := CallTree.isLeaf_iff.mp h
  have hempty : CallTree.empty.isLeaf = true := rfl
  rw [mismatches_eq, mismatches_eq CallTree.empty, h, he, hm, hempty]
  rfl

/-- The reports at a place that is only iterated. -/
theorem mem_mismatches_list {t e : CallTree} (he : t.element = some e) (hm : t.members = []) :
    m ∈ c.mismatches suggest path type t ↔
      match c.settle type with
      | .unknown name => m = (Disagreement.unknownType name).at path
      | .scalar => m = Disagreement.partOfScalar.at path
      | .slice inner => m ∈ c.mismatches suggest (path ++ [.element]) inner e
      | .map key value =>
        m ∈ c.mismatches suggest (path ++ [.element]) key e ∨
          m ∈ c.mismatches suggest (path ++ [.element]) value e
      | .struct _ => m = Disagreement.structAsList.at path := by
  have hleaf : t.isLeaf = false := by
    rw [Bool.eq_false_iff, Ne, CallTree.isLeaf_iff]
    simp [he]
  rw [mismatches_eq]
  cases c.settle type <;> simp [he, hm, hleaf]

/-- The reports at a place that is only drilled into. -/
theorem mem_mismatches_record {t : CallTree} (he : t.element = none) (hm : t.members ≠ []) :
    m ∈ c.mismatches suggest path type t ↔
      match c.settle type with
      | .unknown name => m = (Disagreement.unknownType name).at path
      | .scalar => m = Disagreement.partOfScalar.at path
      | .slice _ | .map _ _ => m = Disagreement.listAsStruct.at path
      | .struct known =>
        ∃ entry ∈ t.members, m ∈ c.entryMismatches suggest path known entry := by
  have hleaf : t.isLeaf = false := by
    rw [Bool.eq_false_iff, Ne, CallTree.isLeaf_iff]
    exact fun h => hm h.2
  rw [mismatches_eq]
  cases c.settle type <;> simp [he, hm, hleaf]

/-- The reports on a field are those on its branches, if this holds of the tree of the field. -/
theorem mem_entryMismatches_iff_branch {known : FieldSet} {entry : String × CallTree}
    (h : ∀ path type, m ∈ c.mismatches suggest path type entry.2 ↔
      ∃ q ∈ entry.2.branches, m ∈ c.mismatches suggest path type (.ofPath q)) :
    m ∈ c.entryMismatches suggest path known entry ↔
      ∃ q ∈ entry.2.branches, m ∈ c.entryMismatches suggest path known (entry.1, .ofPath q) := by
  obtain ⟨key, t⟩ := entry
  simp only [entryMismatches]
  split
  · exact h _ _
  · exact t.iff_exists_branch _

/-- The reports at a place that is only iterated are those on its branches, if this holds of the
elements. -/
theorem mem_mismatches_list_iff_branch {t e : CallTree} (he : t.element = some e)
    (hm : t.members = [])
    (h : ∀ path type, m ∈ c.mismatches suggest path type e ↔
      ∃ q ∈ e.branches, m ∈ c.mismatches suggest path type (.ofPath q)) :
    m ∈ c.mismatches suggest path type t ↔
      ∃ q ∈ t.branches, m ∈ c.mismatches suggest path type (.ofPath q) := by
  have hsingle : ∀ p, (CallTree.ofPath (.element :: p)).element = some (.ofPath p) := fun _ => rfl
  simp only [CallTree.branches_list he hm, List.mem_map, exists_exists_and_eq_and,
    mem_mismatches_list he hm, mem_mismatches_list (hsingle _) rfl]
  cases c.settle type with
  | unknown name => exact e.iff_exists_branch _
  | scalar => exact e.iff_exists_branch _
  | slice inner => exact h _ _
  | map key value => simp only [h, and_or_left, exists_or]
  | struct known => exact e.iff_exists_branch _

/-- The reports at a place that is only drilled into are those on its branches, if this holds of
every field. -/
theorem mem_mismatches_record_iff_branch {t : CallTree} (he : t.element = none)
    (hm : t.members ≠ [])
    (h : ∀ entry ∈ t.members, ∀ path type, m ∈ c.mismatches suggest path type entry.2 ↔
      ∃ q ∈ entry.2.branches, m ∈ c.mismatches suggest path type (.ofPath q)) :
    m ∈ c.mismatches suggest path type t ↔
      ∃ q ∈ t.branches, m ∈ c.mismatches suggest path type (.ofPath q) := by
  have hbranches : (∃ q ∈ t.branches, m ∈ c.mismatches suggest path type (.ofPath q)) ↔
      ∃ entry ∈ t.members, ∃ p ∈ entry.2.branches,
        m ∈ c.mismatches suggest path type (.ofPath (.field entry.1 :: p)) := by
    simp only [CallTree.branches_record he hm, List.mem_flatMap, List.mem_map]
    constructor
    · rintro ⟨_, ⟨entry, hentry, p, hp, rfl⟩, hmem⟩
      exact ⟨entry, hentry, p, hp, hmem⟩
    · rintro ⟨entry, hentry, p, hp, hmem⟩
      exact ⟨_, ⟨entry, hentry, p, hp, rfl⟩, hmem⟩
  have hconst : ∀ p : Prop, p ↔ ∃ entry ∈ t.members, ∃ q ∈ entry.2.branches, p := by
    intro p
    obtain ⟨entry, hentry⟩ := List.exists_mem_of_ne_nil _ hm
    constructor
    · exact fun h => ⟨entry, hentry, (entry.2.iff_exists_branch p).mp h⟩
    · exact fun ⟨_, _, _, _, h⟩ => h
  have hsingle : ∀ key p, (CallTree.ofPath (.field key :: p)).members = [(key, .ofPath p)] :=
    fun _ _ => rfl
  have hne : ∀ key p, (CallTree.ofPath (.field key :: p)).members ≠ [] :=
    fun _ _ => List.cons_ne_nil _ _
  simp only [hbranches, mem_mismatches_record he hm, mem_mismatches_record rfl (hne _ _), hsingle,
    List.mem_singleton, exists_eq_left]
  cases c.settle type with
  | unknown name => exact hconst _
  | scalar => exact hconst _
  | slice inner => exact hconst _
  | map key value => exact hconst _
  | struct known =>
    exact exists_congr fun entry => and_congr_right fun hentry =>
      mem_entryMismatches_iff_branch (h entry hentry)

/-! ## All places -/

/-- **The reports on a consistent tree are those on its branches**, each walked alone. -/
theorem mem_mismatches_iff_branch (t : CallTree) :
    ∀ (path : List Step) (type : TypeExpr), t.isConsistent = true →
      (m ∈ c.mismatches suggest path type t ↔
        ∃ q ∈ t.branches, m ∈ c.mismatches suggest path type (.ofPath q)) := by
  induction t with
  | step t ihElement ihMembers =>
    intro path type hcons
    obtain ⟨-, hconsElement, hconsMembers⟩ := CallTree.isConsistent_iff.mp hcons
    rcases CallTree.isConsistent_cases hcons with hleaf | ⟨e, he, hm⟩ | ⟨he, hm⟩
    · rw [mismatches_leaf hleaf, CallTree.branches_eq, if_pos hleaf]
      simp
    · exact mem_mismatches_list_iff_branch he hm fun path type =>
        ihElement e he path type (hconsElement e he)
    · exact mem_mismatches_record_iff_branch he hm fun entry hentry path type =>
        ihMembers entry hentry path type (hconsMembers entry hentry)

/-- **No mismatch hides, adds or changes another**: a consistent tree is reported exactly the
mismatches, with their places and suggestions, that its branches are reported one by one. -/
theorem mem_validate_iff_branch (c : Catalog) (suggest : Suggester) (type : TypeExpr)
    {t : CallTree} (h : t.isConsistent = true) (m : Mismatch) :
    m ∈ (c.validate suggest t type).mismatches ↔
      ∃ q ∈ t.branches, m ∈ (c.validate suggest (.ofPath q) type).mismatches := by
  simp only [mismatches_validate]
  exact mem_mismatches_iff_branch t [] type h

/-- A record with a list of scalars: the tree drills into the elements of the list, which is one
mismatch, and into two fields that the record lacks. -/
theorem mem_validate_iff_branch_page :
    let c : Catalog :=
      ⟨[("Page", .struct ⟨[("items", .slice (.named "string"))]⟩), ("string", .scalar)]⟩
    let t : CallTree :=
      .node none (some
        [("items", .node (some (.ofPath [.field "id"])) none), ("name", .empty), ("tags", .empty)])
    t.isConsistent = true ∧
      (c.validate noSuggestion t (.named "Page")).mismatches.length = 3 ∧
      ∀ m, m ∈ (c.validate noSuggestion t (.named "Page")).mismatches ↔
        ∃ q ∈ t.branches, m ∈ (c.validate noSuggestion (.ofPath q) (.named "Page")).mismatches :=
  ⟨by decide, by decide, mem_validate_iff_branch _ _ _ (by decide)⟩

/-- A place that is iterated and drilled into is reported as a list, and the field that is missing
there is not reported any more. -/
theorem conflict_not_branchwise :
    ∃ (c : Catalog) (type : TypeExpr) (t : CallTree) (m : Mismatch),
      (∃ q ∈ t.branches, m ∈ (c.validate noSuggestion (.ofPath q) type).mismatches) ∧
        m ∉ (c.validate noSuggestion t type).mismatches :=
  ⟨⟨[("Page", .struct .empty)]⟩, .named "Page", .node (some .empty) (some [("name", .empty)]),
    (Disagreement.missingField "name").at [.field "name"], by decide, by decide⟩

end Catalog

end Fieldwise
