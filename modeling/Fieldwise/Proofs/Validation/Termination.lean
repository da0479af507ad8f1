import Fieldwise.Proofs.Catalog.Following

/-!
# Every check comes to an end

* `Catalog.PointsTo` : the step that looking behind pointers repeats, and
  `Closed.exists_reached` : it ends at a shape that is no pointer, or at an unknown name.
* `Catalog.Calls` : from what is checked at a node to what is checked because of it.
* `Closed.wellFounded_calls` : no check goes on forever, whatever the tree and the type.
* `Closed.mismatches_turn` : what the walk reports, from what it reports one call further on.
* `Catalog.accepted_ends` : resolving, the walk and the search for members all end in an accepted
  catalog.

A call either goes down the tree or stays where it is and follows a pointer. Types may come back on
the way down, as those of nodes that hold nodes do: only the tree bounds them.
-/

set_option autoImplicit false

namespace Fieldwise

open Relation

namespace Catalog

variable {c : Catalog}

/-! ## Pointers -/

/-- Once other names are followed, the type is a pointer to `target`. -/
def PointsTo (c : Catalog) (type target : TypeExpr) : Prop :=
  c.resolve type = some (.pointer target)

namespace Closed

/-- What a type points to is reached by following names and then a pointer. -/
theorem transGen_of_pointsTo (hc : c.Closed) {target : TypeExpr} (type : TypeExpr) :
    c.PointsTo type target → TransGen c.Follows type target := by
  induction type using hc.wellFounded_follows.induction with
  | h type ih =>
    intro h
    rw [PointsTo, hc.resolve_eq] at h
    cases type with
    | pointer inner =>
      cases h
      exact TransGen.single (.pointer target)
    | named name =>
      rw [resolveTurn] at h
      split at h
      · cases h
      · cases h
      · cases h
      · next underlying hentry =>
        have hfollows : c.Follows (.named name) underlying := .name ⟨name, rfl, hentry⟩
        exact TransGen.head hfollows (ih underlying hfollows h)
    | _ => cases h

/-- **Pointers cannot be looked behind forever.** -/
theorem wellFounded_pointsTo (hc : c.Closed) : WellFounded (flip c.PointsTo) := by
  have hfollows : WellFounded (TransGen (flip c.Follows)) := hc.wellFounded_follows.transGen
  refine Subrelation.wf (fun {target type} h => ?_) hfollows
  exact transGen_swap.mpr (hc.transGen_of_pointsTo type h)

/-- Looking behind pointers ends. -/
theorem exists_reached (hc : c.Closed) (type : TypeExpr) :
    ∃ reached, ReflTransGen c.PointsTo type reached ∧ ∀ target, ¬ c.PointsTo reached target := by
  induction type using hc.wellFounded_pointsTo.induction with
  | h type ih =>
    by_cases hpointer : ∃ target, c.PointsTo type target
    · obtain ⟨target, htarget⟩ := hpointer
      obtain ⟨reached, hreached, hend⟩ := ih target htarget
      exact ⟨reached, ReflTransGen.head htarget hreached, hend⟩
    · exact ⟨type, .refl, fun target htarget => hpointer ⟨target, htarget⟩⟩

end Closed

/-! ## The walk -/

/-- To check a tree against a type, a tree is checked against a type: the same one behind a
pointer, or one of its subtrees. -/
inductive Calls (c : Catalog) : CallTree × TypeExpr → CallTree × TypeExpr → Prop
  | pointer {t : CallTree} {type target : TypeExpr} (h : c.PointsTo type target) :
    Calls c (t, type) (t, target)
  | element {t e : CallTree} {type inner : TypeExpr} (h : c.resolve type = some (.slice inner))
    (he : t.element = some e) : Calls c (t, type) (e, inner)
  | key {t e : CallTree} {type key value : TypeExpr} (h : c.resolve type = some (.map key value))
    (he : t.element = some e) : Calls c (t, type) (e, key)
  | value {t e : CallTree} {type key value : TypeExpr} (h : c.resolve type = some (.map key value))
    (he : t.element = some e) : Calls c (t, type) (e, value)
  | field {t : CallTree} {entry : String × CallTree} {type member : TypeExpr} {fields : FieldSet}
    (h : c.resolve type = some (.struct fields)) (hentry : entry ∈ t.members)
    (hmember : fields.get? entry.1 = some member) : Calls c (t, type) (entry.2, member)

/-- What is checked because of `t` and a type, if the checks of other pairs report `next`. -/
def checkTurn (c : Catalog) (suggest : Suggester)
    (next : List Step → TypeExpr → CallTree → List Mismatch) (path : List Step) (type : TypeExpr)
    (t : CallTree) : List Mismatch :=
  match c.resolve type with
  | none => [(Disagreement.unknownType type.render).at path]
  | some .scalar => if t.isLeaf then [] else [Disagreement.partOfScalar.at path]
  | some (.pointer target) => next path target t
  | some (.slice inner) =>
    if t.members.isEmpty then t.element.toList.flatMap (next (path ++ [.element]) inner)
    else [Disagreement.listAsStruct.at path]
  | some (.map key value) =>
    if t.members.isEmpty then
      t.element.toList.flatMap fun e =>
        next (path ++ [.element]) key e ++ next (path ++ [.element]) value e
    else [Disagreement.listAsStruct.at path]
  | some (.struct known) =>
    if t.element.isSome then [Disagreement.structAsList.at path]
    else
      t.members.flatMap fun entry =>
        match known.get? entry.1 with
        | some member => next (path ++ [.field entry.1]) member entry.2
        | none => [missingField suggest known (path ++ [.field entry.1]) entry.1]

namespace Closed

/-- **No check goes on forever.** -/
theorem wellFounded_calls (hc : c.Closed) : WellFounded (flip c.Calls) := by
  refine ⟨fun (t, type) => ?_⟩
  -- first along the tree, and where it stays the same along the pointers in front of the type
  induction t generalizing type with
  | step t ihElement ihMembers =>
    induction type using hc.wellFounded_pointsTo.induction with
    | h type ihPointer =>
      refine Acc.intro _ fun next hcalls => ?_
      cases hcalls with
      | pointer h => exact ihPointer _ h
      | element _ he => exact ihElement _ he _
      | key _ he => exact ihElement _ he _
      | value _ he => exact ihElement _ he _
      | field _ hentry _ => exact ihMembers _ hentry _

/-- **The walk goes from call to call.** -/
theorem mismatches_turn (hc : c.Closed) (suggest : Suggester) (path : List Step) (type : TypeExpr)
    (t : CallTree) :
    c.mismatches suggest path type t =
      c.checkTurn suggest (c.mismatches suggest) path type t := by
  rw [mismatches_eq, hc.settle_eq, checkTurn]
  cases c.resolve type with
  | none => rfl
  | some shape =>
    cases shape with
    | pointer target =>
      dsimp only
      rw [mismatches_eq]
    | struct known =>
      dsimp only
      refine if_congr Iff.rfl rfl (List.flatMap_congr fun entry _ => ?_)
      obtain ⟨key, child⟩ := entry
      unfold entryMismatches
      cases known.get? key <;> rfl
    | _ => rfl

end Closed

/-- A check asks for nothing but what it calls. -/
theorem checkTurn_congr {suggest : Suggester}
    {next next' : List Step → TypeExpr → CallTree → List Mismatch} {type : TypeExpr} {t : CallTree}
    (h : ∀ path type' t', c.Calls (t, type) (t', type') → next path type' t' = next' path type' t')
    (path : List Step) :
    c.checkTurn suggest next path type t = c.checkTurn suggest next' path type t := by
  rw [checkTurn, checkTurn]
  cases hresolve : c.resolve type with
  | none => rfl
  | some shape =>
    cases shape with
    | scalar => rfl
    | pointer target => exact h path target t (.pointer hresolve)
    | slice inner =>
      have hnext (below : List Step) (e : CallTree) (he : e ∈ t.element.toList) :
          next below inner e = next' below inner e :=
        h below inner e (.element hresolve (Option.mem_toList.mp he))
      dsimp only
      rw [List.flatMap_congr (hnext _)]
    | map key value =>
      have hnext (below : List Step) (e : CallTree) (he : e ∈ t.element.toList) :
          next below key e ++ next below value e = next' below key e ++ next' below value e := by
        rw [h below key e (.key hresolve (Option.mem_toList.mp he)),
          h below value e (.value hresolve (Option.mem_toList.mp he))]
      dsimp only
      rw [List.flatMap_congr (hnext _)]
    | struct known =>
      dsimp only
      refine if_congr Iff.rfl rfl (List.flatMap_congr fun entry hentry => ?_)
      cases hmember : known.get? entry.1 with
      | none => rfl
      | some member => exact h _ member entry.2 (.field hresolve hentry hmember)

/-! ## All three -/

/-- Nothing that is asked of the catalog goes on forever, and each answer is the only one that its
turns allow. -/
structure Ends (c : Catalog) : Prop where
  turns_le : ∀ (type : TypeExpr) (turns : List TypeExpr), (type :: turns).IsChain c.Renames →
    turns.length ≤ c.declaredNames.length
  resolve_iff : ∀ f, (∀ type, f type = c.resolveTurn f type) ↔ f = c.resolve
  reached : ∀ type, ∃ reached, ReflTransGen c.PointsTo type reached ∧
    ∀ target, c.resolve reached ≠ some (.pointer target)
  members_iff : ∀ f, (∀ type, f type = c.membersTurn f type) ↔ f = c.members
  calls : WellFounded (flip c.Calls)
  mismatches_iff : ∀ suggest f,
    (∀ path type t, f path type t = c.checkTurn suggest f path type t) ↔ f = c.mismatches suggest

namespace Closed

/-- Resolving is told by its turns. -/
theorem resolve_iff (hc : c.Closed) (f : TypeExpr → Option TypeShape) :
    (∀ type, f type = c.resolveTurn f type) ↔ f = c.resolve := by
  constructor
  · intro h
    funext type
    induction type using hc.wellFounded_follows.induction with
    | h type ih =>
      rw [h, hc.resolve_eq]
      cases type with
      | named name =>
        rw [resolveTurn, resolveTurn]
        split
        · rfl
        · rfl
        · rfl
        · next underlying hentry => exact ih underlying (.name ⟨name, rfl, hentry⟩)
      | _ => rfl
  · rintro rfl
    exact hc.resolve_eq

/-- The search for members is told by its turns. -/
theorem members_iff (hc : c.Closed) (f : TypeExpr → Except NoMembers FieldSet) :
    (∀ type, f type = c.membersTurn f type) ↔ f = c.members := by
  constructor
  · intro h
    funext type
    induction type using hc.wellFounded_pointsTo.induction with
    | h type ih =>
      rw [h, hc.members_eq, membersTurn, membersTurn]
      split
      · rfl
      · rfl
      · rfl
      · next target hpointer => exact ih target hpointer
      · rfl
      · rfl
  · rintro rfl
    exact hc.members_eq

/-- The walk is told by its calls. -/
theorem mismatches_iff (hc : c.Closed) (suggest : Suggester)
    (f : List Step → TypeExpr → CallTree → List Mismatch) :
    (∀ path type t, f path type t = c.checkTurn suggest f path type t) ↔
      f = c.mismatches suggest := by
  constructor
  · intro h
    have hpair : ∀ (pair : CallTree × TypeExpr) (path : List Step),
        f path pair.2 pair.1 = c.mismatches suggest path pair.2 pair.1 := by
      intro pair
      induction pair using hc.wellFounded_calls.induction with
      | h pair ih =>
        intro path
        rw [h, hc.mismatches_turn]
        exact checkTurn_congr (fun path type' t' hcalls => ih (t', type') hcalls path) path
    funext path type t
    exact hpair (t, type) path
  · rintro rfl
    exact hc.mismatches_turn suggest

end Closed

/-- **In an accepted catalog every check comes to an end.** No more other names follow each other
than are declared; looking behind pointers reaches a shape that is no pointer, or a name that is
not known; and neither the walk of any tree against any type nor the search for the members of a
type goes on forever. -/
theorem accepted_ends {file : CatalogFile} {c : Catalog} (hfile : Catalog.ofFile file = .ok c)
    (hnames : (file.types.map Prod.fst).Nodup) : c.Ends := by
  obtain ⟨w, rfl⟩ := of_ofFile hfile
  have hc := closed_ofTypes w hnames
  refine ⟨fun type turns hturns => ?_, hc.resolve_iff, hc.exists_reached, hc.members_iff,
    hc.wellFounded_calls, hc.mismatches_iff⟩
  have hle := hc.length_le_of_renames turns [] type (fun name _ => List.isChain_singleton name)
    (Nat.zero_le _) hturns
  rwa [List.length_nil, Nat.zero_add] at hle

/-- A list of itself, and a record that refers to itself by another name and pointers: such names
come back, and still every check ends. -/
theorem accepted_ends_circular :
    let file : CatalogFile :=
      ⟨[("L", ⟨some (.slice (.named "L")), [], []⟩),
        ("Link", ⟨some (.pointer (.pointer (.named "Node"))), [], []⟩),
        ("Node", ⟨none, [⟨"Next", .pointer (.named "Link"), false⟩], []⟩)]⟩
    ∃ c, Catalog.ofFile file = .ok c ∧ (file.types.map Prod.fst).Nodup ∧ c.Ends := by
  intro file
  have hfile : Catalog.ofFile file = .ok (ofTypes file.types) :=
    ofFile_of_isOk (by decide +kernel)
  have hnames : (file.types.map Prod.fst).Nodup := by decide
  exact ⟨_, hfile, hnames, accepted_ends hfile hnames⟩

end Catalog

end Fieldwise
