import Fieldwise.Proofs.CallTree.Inclusion
import Mathlib.Data.Set.Insert

/-!
# Call trees that grow

Several trees, all empty at first, grow by calls and unions. A call goes from a node to one below
it and makes what is missing on the way; a union puts a copy of a tree into a node. Both are made
at any node that calls lead to from the root of a tree.

* `CallTree.Filled` : no node is drilled into without a field; unions keep this.
* `CallTree.changeAt` : a change of one node. `changeAt_touch`, `changeAt_merge` : a call and a union
  at a node, said of the whole tree.
* `Grove.Operation.apply`, `Grove.Operation.record` : what an operation does to the trees, and to the
  sets of paths that are recorded for them.
* `Grove.Keeps.apply` : each operation keeps the nodes of the trees and the recorded paths the same,
  and `Grove.keeps_run` : so does any run.
* `Grove.run_keeps_paths` : what this says about reading a tree by names.
-/

set_option autoImplicit false

namespace Fieldwise

namespace CallTree

variable {s t : CallTree}

/-! ## Nodes that are drilled into without a field -/

/-- No node of the tree is drilled into without a field. -/
def Filled (t : CallTree) : Prop :=
  ∀ path u, t.get? path = some u → u.fields ≠ some []

theorem filled_iff :
    t.Filled ↔ t.fields ≠ some [] ∧ ∀ step c, t.child? step = some c → c.Filled := by
  constructor
  · intro h
    refine ⟨h [] t rfl, fun step c hc path u hu => h (step :: path) u ?_⟩
    rw [get?_cons, hc, Option.bind_some, hu]
  · rintro ⟨hroot, hbelow⟩ path u hu
    cases path with
    | nil =>
      obtain rfl : t = u := Option.some.inj hu
      exact hroot
    | cons step path =>
      rw [get?_cons, Option.bind_eq_some_iff] at hu
      obtain ⟨c, hc, hu⟩ := hu
      exact hbelow step c hc path u hu

/-- A node that is no record without fields is a leaf only as the empty tree. -/
theorem isLeaf_iff_eq_empty (h : t.fields ≠ some []) : t.isLeaf = true ↔ t = empty := by
  rw [isLeaf_iff]
  constructor
  · rintro ⟨helement, hmembers⟩
    obtain ⟨e, _ | fs⟩ := t
    · obtain rfl : e = none := helement
      rfl
    · obtain rfl : fs = [] := hmembers
      exact absurd rfl h
  · rintro rfl
    exact ⟨rfl, rfl⟩

theorem fields_ne_some_nil_iff :
    t.fields ≠ some [] ↔ (t.fields.isSome = true → t.members ≠ []) := by
  obtain ⟨e, _ | fs⟩ := t <;> simp

theorem filled_empty : empty.Filled :=
  filled_iff.mpr ⟨by simp, fun step c hc => by simp at hc⟩

/-- **The union of two filled trees is filled.** -/
theorem filled_merge (hs : s.Ordered) (ht : t.Ordered) (hfs : s.Filled) (hft : t.Filled) :
    (s.merge t).Filled := by
  induction t using child_induct generalizing s with
  | step t ih =>
    obtain ⟨hsRoot, hsBelow⟩ := filled_iff.mp hfs
    obtain ⟨htRoot, htBelow⟩ := filled_iff.mp hft
    refine filled_iff.mpr ⟨fields_ne_some_nil_iff.mpr fun hsome hnil => ?_, fun step u hu => ?_⟩
    · obtain ⟨hsNil, htNil⟩ := (members_merge_eq_nil s t).mp hnil
      rcases isSome_fields_merge.mp hsome with hsome | hsome
      · exact fields_ne_some_nil_iff.mp hsRoot hsome hsNil
      · exact fields_ne_some_nil_iff.mp htRoot hsome htNil
    · rw [child?_merge hs ht, mergeElement_eq_some] at hu
      rcases hu with ⟨hc, -⟩ | ⟨-, hd⟩ | ⟨c, d, hc, hd, rfl⟩
      · exact hsBelow step u hc
      · exact htBelow step u hd
      · exact ih step d hd (hs.child hc) (ht.child hd) (hsBelow step c hc) (htBelow step d hd)

theorem filled_under (ht : t.Filled) (path : List Step) : (t.under path).Filled := by
  induction path with
  | nil => exact ht
  | cons first path ih =>
    refine filled_iff.mpr ⟨by cases first <;> simp [under], fun step c hc => ?_⟩
    have hbelow : c = t.under path := by
      cases first <;> cases step <;> simp_all [under, List.lookup_cons]
      split at hc <;> simp_all
    rw [hbelow]
    exact ih

/-! ## Changing a node -/

/-- The tree with the node at the end of a path changed, and made before if it is missing. -/
def changeAt (f : CallTree → CallTree) (t : CallTree) : List Step → CallTree
  | [] => f t
  | .element :: path => node (some ((t.element.getD empty).changeAt f path)) t.fields
  | .field key :: path =>
    node t.element
      (some (Keyed.update key (fun child => (child.getD empty).changeAt f path) t.members))

theorem touch_eq_changeAt (path : List Step) :
    ∀ t : CallTree, t.touch path = t.changeAt id path := by
  induction path with
  | nil => exact fun t => rfl
  | cons step path ih => cases step <;> simp [touch, changeAt, ih]

theorem changeAt_append (f : CallTree → CallTree) (p q : List Step) :
    ∀ t : CallTree, t.changeAt f (p ++ q) = t.changeAt (fun u => u.changeAt f q) p := by
  induction p with
  | nil => exact fun t => rfl
  | cons step p ih => cases step <;> simp [changeAt, ih]

/-- **To go on from a node is to go the whole way from the root.** -/
theorem changeAt_touch (p q : List Step) (t : CallTree) :
    t.changeAt (fun u => u.touch q) p = t.touch (p ++ q) := by
  rw [touch_eq_changeAt, changeAt_append]
  simp only [touch_eq_changeAt]

/-- **To unite a node with a tree is to unite the whole with the tree below the path.** -/
theorem changeAt_merge (hs : s.Ordered) (path : List Step) :
    ∀ t : CallTree, t.changeAt (fun u => u.merge s) path = t.merge (s.under path) := by
  induction path with
  | nil => exact fun t => rfl
  | cons step path ih =>
    rintro ⟨e, fs⟩
    have hmissing : empty.changeAt (fun u => u.merge s) path = s.under path :=
      (ih empty).trans (empty_merge (ordered_under hs path))
    cases step with
    | element =>
      refine congrArg (fun e => node e fs) ?_
      cases e with
      | none => exact congrArg some hmissing
      | some e => exact congrArg some (ih e)
    | field key =>
      refine congrArg (fun f => node e (some (Keyed.update key f (fs.getD []))))
        (funext fun child => ?_)
      cases child with
      | none => exact hmissing
      | some c => exact ih c

end CallTree

/-! ## Operations -/

namespace Grove

/-- A call on a node that goes on to a node below it. -/
inductive Move where
  | element
  | field (name : String)
  | fieldPath (names : List String)
  deriving DecidableEq, Repr

/-- The steps of a call. -/
def Move.steps : Move → List Step
  | element => [.element]
  | field name => [.named name]
  | fieldPath names => names.map .named

/-- The path that calls lead along, each from the node where the one before ends. -/
def walked (way : List Move) : List Step :=
  way.flatMap Move.steps

/-- A change of one of the trees, at the node that a way from its root leads to. -/
inductive Operation where
  /-- One more call, on the node. -/
  | call (tree : Nat) (way : List Move) (move : Move)
  /-- The union of the node with a copy of another tree. -/
  | unite (tree : Nat) (way : List Move) (other : Nat)
  deriving DecidableEq, Repr

namespace Operation

/-- The trees after an operation. -/
def apply (trees : Nat → CallTree) : Operation → Nat → CallTree
  | call i way move =>
    Function.update trees i ((trees i).changeAt (fun u => u.touch move.steps) (walked way))
  | unite i way j =>
    Function.update trees i ((trees i).changeAt (fun u => u.merge (trees j)) (walked way))

/-- The paths recorded after an operation: the one that is walked with its prefixes and, in a
union, the paths of the other tree behind it. -/
def record (paths : Nat → Set (List Step)) : Operation → Nat → Set (List Step)
  | call i way move =>
    Function.update paths i (paths i ∪ { p | p <+: walked way ++ move.steps })
  | unite i way j =>
    Function.update paths i
      (paths i ∪ ({ p | p <+: walked way } ∪ { p | ∃ r, p = walked way ++ r ∧ r ∈ paths j }))

end Operation

/-- The trees after a run that begins with empty trees. -/
def run (operations : List Operation) : Nat → CallTree :=
  operations.foldl Operation.apply fun _ => .empty

/-- The paths recorded in a run that begins with the roots. -/
def recorded (operations : List Operation) : Nat → Set (List Step) :=
  operations.foldl Operation.record fun _ => {[]}

/-! ## What every operation keeps -/

/-- The trees are in order and filled, and each has nodes exactly at the paths recorded for it. -/
structure Keeps (trees : Nat → CallTree) (paths : Nat → Set (List Step)) : Prop where
  ordered : ∀ i, (trees i).Ordered
  filled : ∀ i, (trees i).Filled
  hasNode : ∀ i p, (trees i).HasNode p ↔ p ∈ paths i

namespace Keeps

variable {trees : Nat → CallTree} {paths : Nat → Set (List Step)}

theorem start : Keeps (fun _ => .empty) fun _ => {[]} where
  ordered _ := CallTree.ordered_empty
  filled _ := CallTree.filled_empty
  hasNode _ _ := CallTree.hasNode_empty

/-- One tree is united with a tree below a path, and all other trees stay. -/
theorem merge_under (h : Keeps trees paths) (i : Nat) {s : CallTree} (hs : s.Ordered)
    (hfilled : s.Filled) (path : List Step) :
    Keeps (Function.update trees i ((trees i).merge (s.under path)))
      (Function.update paths i
        (paths i ∪ ({ p | p <+: path } ∪ { p | ∃ r, p = path ++ r ∧ s.HasNode r }))) := by
  have hunder := CallTree.ordered_under hs path
  refine ⟨fun j => ?_, fun j => ?_, fun j p => ?_⟩ <;> rcases eq_or_ne j i with rfl | hj
  · simpa using CallTree.ordered_merge _ _ (h.ordered j) hunder
  · simpa [hj] using h.ordered j
  · simpa using CallTree.filled_merge (h.ordered j) hunder (h.filled j)
      (CallTree.filled_under hfilled path)
  · simpa [hj] using h.filled j
  · rw [Function.update_self, Function.update_self, CallTree.hasNode_merge, h.hasNode,
      CallTree.hasNode_under]
    rfl
  · simpa [hj] using h.hasNode j p

/-- **After each operation the trees have nodes exactly at the recorded paths.** -/
theorem apply (h : Keeps trees paths) (operation : Operation) :
    Keeps (operation.apply trees) (operation.record paths) := by
  cases operation with
  | call i way move =>
    rw [Operation.apply, CallTree.changeAt_touch, CallTree.touch_eq_merge,
      CallTree.ofPath_eq_under]
    have hempty := h.merge_under i CallTree.ordered_empty CallTree.filled_empty
      (walked way ++ move.steps)
    -- behind the path the empty tree has its root only, which is the end of the path
    have hend : { p | p <+: walked way ++ move.steps } ∪
        { p | ∃ r, p = walked way ++ move.steps ++ r ∧ CallTree.empty.HasNode r } =
          { p | p <+: walked way ++ move.steps } := by
      simp [CallTree.hasNode_empty, Set.insert_eq_of_mem]
    rwa [hend] at hempty
  | unite i way j =>
    rw [Operation.apply, CallTree.changeAt_merge (h.ordered j), Operation.record]
    simpa only [h.hasNode] using h.merge_under i (h.ordered j) (h.filled j) (walked way)

theorem foldl (operations : List Operation) : ∀ {trees : Nat → CallTree}
    {paths : Nat → Set (List Step)}, Keeps trees paths →
    Keeps (operations.foldl Operation.apply trees) (operations.foldl Operation.record paths) := by
  induction operations with
  | nil => exact fun h => h
  | cons operation rest ih => exact fun h => ih (h.apply operation)

end Keeps

/-- **After any run the trees have nodes exactly at the recorded paths.** -/
theorem keeps_run (operations : List Operation) : Keeps (run operations) (recorded operations) :=
  Keeps.start.foldl operations

/-- **A call tree never loses a path.** After any run no node is drilled into without a field, so
that a node is a leaf exactly as the empty tree; a tree has nodes exactly at the paths recorded for
it; and it is read at names exactly when their path, in lower case, is recorded, and then gives the
tree of the recorded paths that go on from there. -/
theorem run_keeps_paths (operations : List Operation) (i : Nat) :
    (∀ path u, (run operations i).get? path = some u →
        u.fields ≠ some [] ∧ (u.isLeaf = true ↔ u = .empty)) ∧
      (∀ p, (run operations i).HasNode p ↔ p ∈ recorded operations i) ∧
        ∀ names,
          (((run operations i).field? names).isSome = true ↔
            names.map Step.named ∈ recorded operations i) ∧
          ∀ u, (run operations i).field? names = some u →
            ∀ rest, u.HasNode rest ↔ names.map Step.named ++ rest ∈ recorded operations i := by
  obtain ⟨hordered, hfilled, hnode⟩ := keeps_run operations
  refine ⟨fun path u hu => ?_, hnode i, fun names => ⟨?_, fun u hu rest => ?_⟩⟩
  · have hroot := hfilled i path u hu
    exact ⟨hroot, CallTree.isLeaf_iff_eq_empty hroot⟩
  · rw [← hnode]
    exact CallTree.isSome_get?_iff _ (hordered i)
  · rw [← hnode]
    exact CallTree.hasNode_of_get? _ (hordered i) hu rest

/-- The elements of a field are united with a second tree, and read in another letter case. -/
theorem run_keeps_paths_items :
    let operations : List Operation :=
      [.call 0 [] (.fieldPath ["Items"]), .call 1 [.element] (.field "Name"),
        .unite 0 [.field "ITEMS"] 1, .call 0 [.field "items"] (.fieldPath ["Count"])]
    [.field "items", .element, .field "name"] ∈ recorded operations 0 ∧
      ∃ u, (run operations 0).field? ["iTems"] = some u ∧ u.HasNode [.element, .field "name"] := by
  intro operations
  obtain ⟨-, hpaths, hread⟩ := run_keeps_paths operations 0
  have hnode : (run operations 0).HasNode [.field "items", .element, .field "name"] :=
    (CallTree.isSome_get?_iff _ ((keeps_run operations).ordered 0)).mp (by decide +kernel)
  have hsome : ((run operations 0).field? ["iTems"]).isSome = true := by decide +kernel
  have hkey : ["iTems"].map Step.named = [.field "items"] := by decide +kernel
  obtain ⟨u, hu⟩ := Option.isSome_iff_exists.mp hsome
  refine ⟨(hpaths _).mp hnode, u, hu, ((hread _).2 u hu _).mpr ?_⟩
  rw [hkey]
  exact (hpaths _).mp hnode

end Grove

end Fieldwise
