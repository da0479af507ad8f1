import Fieldwise.Catalog.Members
import Fieldwise.Proofs.Validation.Closure

/-!
# Following names and pointers

* `Catalog.Renames`, `Catalog.Follows` : one step from a name to what it is another name for, and
  one step from there or from a pointer to what it points to.
* `Closed.length_le_of_renames` : no more other names follow each other than are declared.
* `Closed.wellFounded_follows` : names and pointers, in any order, cannot be followed forever.
* `Closed.resolve_eq`, `Closed.settle_eq`, `Closed.members_eq` : what `Catalog.resolve`,
  `Catalog.settle` and `Catalog.members` give for a type, from what they give one step further on.

The measure is the graph of other names, which has no circle. It is stated between names without
their pointers, while a walk meets names and pointers in any order: a pointer behind a name uses up
an edge of the graph, and any other one makes the expression smaller.
-/

set_option autoImplicit false

namespace Fieldwise

open Relation

/-- The members that templates can use on a value of a shape, or what the shape is instead. -/
def SettledShape.members : SettledShape → Except NoMembers FieldSet
  | .unknown name => .error (.unknown name)
  | .scalar => .error .scalar
  | .struct fields => .ok fields
  | .slice _ => .error .list
  | .map _ _ => .error .map

namespace Catalog

variable {c : Catalog}

/-! ## Steps -/

/-- The type is another name for `underlying`. -/
def Renames (c : Catalog) (type underlying : TypeExpr) : Prop :=
  ∃ name, type = .named name ∧ c.entries.lookup name = some (.alias underlying)

/-- From another name to what it stands for, or from a pointer to what it points to. -/
inductive Follows (c : Catalog) : TypeExpr → TypeExpr → Prop
  | name {type underlying : TypeExpr} (h : c.Renames type underlying) : Follows c type underlying
  | pointer (target : TypeExpr) : Follows c (.pointer target) target

namespace Closed

/-- **No more other names follow each other than are declared.** The names `before` lead to the
type. -/
theorem length_le_of_renames (hc : c.Closed) : ∀ (turns : List TypeExpr) (before : List String)
    (type : TypeExpr),
    (∀ name, type.targetName? = some name → (before ++ [name]).IsChain c.AliasOf) →
    before.length ≤ c.declaredNames.length → (type :: turns).IsChain c.Renames →
    before.length + turns.length ≤ c.declaredNames.length
  | [], before, type, _, hbefore, _ => hbefore
  | underlying :: turns, before, type, hleads, _, hturns => by
    obtain ⟨⟨name, rfl, hentry⟩, hrest⟩ := List.isChain_cons_cons.mp hturns
    have hchain := hleads name rfl
    have hlt := hc.length_lt (hchain.imp fun _ _ => TransGen.single) hentry
    have hlength : (before ++ [name]).length = before.length + 1 := List.length_append
    have hle := hc.length_le_of_renames turns (before ++ [name]) underlying
      (fun next hnext => isChain_append_step hchain ⟨underlying, hentry, hnext⟩)
      (by rw [hlength]; exact hlt) hrest
    rw [hlength] at hle
    rw [List.length_cons]
    omega

/-- Every walk along other names ends. -/
theorem acc_aliasOf (hc : c.Closed) : ∀ (fuel : Nat) (before : List String) (name : String),
    (before ++ [name]).IsChain c.AliasOf → c.declaredNames.length ≤ before.length + fuel →
    Acc (flip c.AliasOf) name
  | fuel, before, name, hchain, hfuel => by
    refine Acc.intro name fun next hnext => ?_
    obtain ⟨underlying, hentry, -⟩ := id hnext
    have hlt := hc.length_lt (hchain.imp fun _ _ => TransGen.single) hentry
    cases fuel with
    | zero => omega
    | succ fuel =>
      refine hc.acc_aliasOf fuel (before ++ [name]) next (isChain_append_step hchain hnext) ?_
      rw [List.length_append, List.length_singleton]
      omega

/-- A walk along names and pointers ends, if it does from the name behind the first pointers. -/
theorem acc_follows_of_target : ∀ type : TypeExpr,
    (∀ name, type.targetName? = some name → Acc (flip c.Follows) (.named name)) →
    Acc (flip c.Follows) type
  | .named name, h => h name rfl
  | .pointer target, h => by
    refine Acc.intro _ fun next hnext => ?_
    cases hnext with
    | name hrenames =>
      obtain ⟨_, hname, -⟩ := hrenames
      cases hname
    | pointer => exact acc_follows_of_target target h
  | .slice _, _ | .array _ _, _ | .map _ _, _ => by
    refine Acc.intro _ fun next hnext => ?_
    cases hnext with
    | name hrenames =>
      obtain ⟨_, hname, -⟩ := hrenames
      cases hname

/-- **Names and pointers cannot be followed forever**, whatever their order. -/
theorem wellFounded_follows (hc : c.Closed) : WellFounded (flip c.Follows) := by
  have hnamed : ∀ name, Acc (flip c.Follows) (.named name) := by
    intro name
    have hacc := hc.acc_aliasOf c.declaredNames.length [] name (List.isChain_singleton name)
      (Nat.le_add_left _ _)
    induction hacc with
    | intro name _ ih =>
      refine Acc.intro _ fun underlying hfollows => ?_
      cases hfollows with
      | name hrenames =>
        obtain ⟨_, hname, hentry⟩ := hrenames
        cases hname
        exact acc_follows_of_target underlying fun next hnext =>
          ih next ⟨underlying, hentry, hnext⟩
  exact ⟨fun type => acc_follows_of_target type fun name _ => hnamed name⟩

end Closed

/-! ## Resolving -/

/-- One turn of resolving a type; `next` goes on with what a name stands for. -/
def resolveTurn (c : Catalog) (next : TypeExpr → Option TypeShape) :
    TypeExpr → Option TypeShape
  | .named name =>
    match c.entries.lookup name with
    | none => none
    | some .scalar => some .scalar
    | some (.struct fields) => some (.struct fields)
    | some (.alias underlying) => next underlying
  | type => type.compositeShape?

/-- A name is looked up, whatever the fuel. -/
theorem resolveWithin_named (fuel : Nat) (name : String) :
    c.resolveWithin fuel (.named name) =
      match c.entries.lookup name with
      | none => none
      | some .scalar => some .scalar
      | some (.struct fields) => some (.struct fields)
      | some (.alias underlying) =>
        match fuel with
        | 0 => none
        | fuel + 1 => c.resolveWithin fuel underlying :=
  Catalog.resolveWithin.eq_def c fuel (.named name)

namespace Closed

/-- More fuel than there are entries changes nothing. -/
theorem resolveWithin_succ (hc : c.Closed) : ∀ (fuel : Nat) (before : List String)
    (type : TypeExpr),
    (∀ name, type = .named name → (before ++ [name]).IsChain c.AliasOf) →
    c.entries.length ≤ before.length + fuel →
    c.resolveWithin (fuel + 1) type = c.resolveWithin fuel type
  | fuel, _, .pointer _, _, _ | fuel, _, .slice _, _, _ | fuel, _, .array _ _, _, _
  | fuel, _, .map _ _, _, _ => by cases fuel <;> rfl
  | fuel, before, .named name, hleads, hfuel => by
    rw [resolveWithin_named, resolveWithin_named]
    cases hentry : c.entries.lookup name with
    | none => rfl
    | some entry =>
      cases entry with
      | scalar => rfl
      | struct fields => rfl
      | «alias» underlying =>
        have hchain := hleads name rfl
        have hlt := hc.length_lt_entries hchain hentry
        cases fuel with
        | zero => omega
        | succ fuel =>
          refine hc.resolveWithin_succ fuel (before ++ [name]) underlying (fun next hnext => ?_) ?_
          · exact isChain_append_step hchain ⟨underlying, hentry, by rw [hnext]; rfl⟩
          · rw [List.length_append, List.length_singleton]
            omega

/-- Another name has the shape of what it stands for. -/
theorem resolve_of_renames (hc : c.Closed) {type underlying : TypeExpr}
    (h : c.Renames type underlying) : c.resolve type = c.resolve underlying := by
  obtain ⟨name, rfl, hentry⟩ := h
  have hchain : ([] ++ [name]).IsChain c.AliasOf := List.isChain_singleton name
  have hlt := hc.length_lt_entries hchain hentry
  rw [Catalog.resolve, Catalog.resolve]
  cases hfuel : c.entries.length with
  | zero => omega
  | succ fuel =>
    rw [hc.resolveWithin_succ fuel [name] underlying
      (fun next hnext => isChain_append_step hchain ⟨underlying, hentry, by rw [hnext]; rfl⟩)
      (by rw [List.length_singleton]; omega), resolveWithin_named, hentry]

/-- **Resolving goes from turn to turn.** -/
theorem resolve_eq (hc : c.Closed) (type : TypeExpr) :
    c.resolve type = c.resolveTurn c.resolve type := by
  cases type with
  | named name =>
    have hnamed := c.resolveWithin_named c.entries.length name
    rw [resolveTurn]
    cases hentry : c.entries.lookup name with
    | none => rw [Catalog.resolve, hnamed, hentry]
    | some entry =>
      cases entry with
      | scalar => rw [Catalog.resolve, hnamed, hentry]
      | struct fields => rw [Catalog.resolve, hnamed, hentry]
      | «alias» underlying => exact hc.resolve_of_renames ⟨name, rfl, hentry⟩
  | _ =>
    rw [Catalog.resolve, Catalog.resolveWithin.eq_def]
    rfl

end Closed

/-! ## Shapes behind pointers -/

/-- Behind leading pointers a name is looked up, whatever the fuel. -/
theorem settleWithin_eq (fuel : Nat) (type : TypeExpr) :
    c.settleWithin fuel type =
      match type.stripPointers with
      | .named name =>
        match c.entries.lookup name with
        | none => .unknown name
        | some .scalar => .scalar
        | some (.struct fields) => .struct fields
        | some (.alias underlying) =>
          match fuel with
          | 0 => .unknown name
          | fuel + 1 => c.settleWithin fuel underlying
      | .slice element | .array _ element => .slice element
      | .map key value => .map key value
      | .pointer _ => .unknown type.render :=
  Catalog.settleWithin.eq_def c fuel type

/-- Pointers are looked behind. -/
theorem settle_pointer (target : TypeExpr) : c.settle (.pointer target) = c.settle target := by
  have hnone : ∀ inner, target.stripPointers ≠ .pointer inner := target.stripPointers_ne_pointer
  rw [settle, settle, settleWithin_eq, settleWithin_eq, TypeExpr.stripPointers]
  cases hstripped : target.stripPointers with
  | pointer inner => exact absurd hstripped (hnone inner)
  | _ => rfl

namespace Closed

/-- More fuel than there are entries changes nothing. -/
theorem settleWithin_succ (hc : c.Closed) : ∀ (fuel : Nat) (before : List String)
    (type : TypeExpr),
    (∀ name, type.targetName? = some name → (before ++ [name]).IsChain c.AliasOf) →
    c.entries.length ≤ before.length + fuel →
    c.settleWithin (fuel + 1) type = c.settleWithin fuel type
  | fuel, before, type, hleads, hfuel => by
    rw [settleWithin_eq, settleWithin_eq]
    cases hstripped : type.stripPointers with
    | named name =>
      have hchain := hleads name (by rw [TypeExpr.targetName?, hstripped]; rfl)
      dsimp only
      cases hentry : c.entries.lookup name with
      | none => rfl
      | some entry =>
        cases entry with
        | scalar => rfl
        | struct fields => rfl
        | «alias» underlying =>
          have hlt := hc.length_lt_entries hchain hentry
          cases fuel with
          | zero => omega
          | succ fuel =>
            refine hc.settleWithin_succ fuel (before ++ [name]) underlying (fun next hnext => ?_) ?_
            · exact isChain_append_step hchain ⟨underlying, hentry, hnext⟩
            · rw [List.length_append, List.length_singleton]
              omega
    | _ => rfl

/-- Another name settles to what it stands for. -/
theorem settle_of_renames (hc : c.Closed) {type underlying : TypeExpr}
    (h : c.Renames type underlying) : c.settle type = c.settle underlying := by
  obtain ⟨name, rfl, hentry⟩ := h
  have hchain : ([] ++ [name]).IsChain c.AliasOf := List.isChain_singleton name
  have hlt := hc.length_lt_entries hchain hentry
  rw [Catalog.settle, Catalog.settle]
  cases hfuel : c.entries.length with
  | zero => omega
  | succ fuel =>
    rw [hc.settleWithin_succ fuel [name] underlying
      (fun next hnext => isChain_append_step hchain ⟨underlying, hentry, hnext⟩)
      (by rw [List.length_singleton]; omega), settleWithin_eq, TypeExpr.stripPointers]
    · simp only [hentry]
    · exact fun _ => TypeExpr.noConfusion

/-- **Behind pointers lies the shape of what they point to.** -/
theorem settle_eq (hc : c.Closed) (type : TypeExpr) :
    c.settle type =
      match c.resolve type with
      | none => .unknown type.render
      | some .scalar => .scalar
      | some (.struct fields) => .struct fields
      | some (.pointer target) => c.settle target
      | some (.slice element) => .slice element
      | some (.map key value) => .map key value := by
  induction type using hc.wellFounded_follows.induction with
  | h type ih =>
    cases type with
    | pointer target =>
      rw [hc.resolve_eq]
      exact settle_pointer target
    | named name =>
      cases hentry : c.entries.lookup name with
      | none =>
        rw [hc.resolve_eq, Catalog.settle, settleWithin_eq]
        simp only [TypeExpr.stripPointers, resolveTurn, hentry, TypeExpr.render]
      | some entry =>
        cases entry with
        | «alias» underlying =>
          have hrenames : c.Renames (.named name) underlying := ⟨name, rfl, hentry⟩
          obtain ⟨shape, hshape, -⟩ := hc.resolve (hc.alias_known name underlying hentry)
          rw [hc.settle_of_renames hrenames, hc.resolve_of_renames hrenames,
            ih underlying (.name hrenames), hshape]
          cases shape <;> rfl
        | _ =>
          rw [hc.resolve_eq, Catalog.settle, settleWithin_eq]
          simp only [TypeExpr.stripPointers, resolveTurn, hentry]
    | _ =>
      rw [hc.resolve_eq, Catalog.settle, settleWithin_eq]
      rfl

/-- Nothing but pointers is removed in front of a type. -/
theorem settle_stripPointers : ∀ type : TypeExpr, c.settle type.stripPointers = c.settle type
  | .pointer target => by rw [settle_pointer, TypeExpr.stripPointers, settle_stripPointers target]
  | .named _ | .slice _ | .array _ _ | .map _ _ => rfl

end Closed

/-! ## Members -/

/-- One turn of the search for members; `next` goes on with what a pointer points to. -/
def membersTurn (c : Catalog) (next : TypeExpr → Except NoMembers FieldSet) (type : TypeExpr) :
    Except NoMembers FieldSet :=
  match c.resolve type with
  | none => .error (.unknown type.render)
  | some .scalar => .error .scalar
  | some (.struct fields) => .ok fields
  | some (.pointer target) => next target
  | some (.slice _) => .error .list
  | some (.map _ _) => .error .map

namespace Closed

/-- A name that resolves to a pointer leads, by other names, to what lies behind that pointer. -/
theorem leads_of_resolve (hc : c.Closed) {inner : TypeExpr} {next : String}
    (hnext : inner.targetName? = some next) (type : TypeExpr) :
    c.resolve type = some (.pointer inner) → ∀ name, type = .named name →
      TransGen c.AliasOf name next := by
  induction type using hc.wellFounded_follows.induction with
  | h type ih =>
    rintro hpointer name rfl
    rw [hc.resolve_eq, resolveTurn] at hpointer
    split at hpointer
    · cases hpointer
    · cases hpointer
    · cases hpointer
    · next underlying hentry =>
      cases underlying with
      | named other =>
        have hrest := ih (.named other) (.name ⟨name, rfl, hentry⟩) hpointer other rfl
        exact TransGen.head ⟨.named other, hentry, rfl⟩ hrest
      | pointer target =>
        rw [hc.resolve_eq] at hpointer
        cases hpointer
        exact TransGen.single ⟨.pointer inner, hentry, hnext⟩
      | _ =>
        rw [hc.resolve_eq] at hpointer
        cases hpointer

/-- Only another name resolves to a pointer without being one. -/
theorem alias_of_resolve (hc : c.Closed) {type inner : TypeExpr}
    (h : c.resolve type.stripPointers = some (.pointer inner)) :
    ∃ name underlying, type.stripPointers = .named name ∧
      c.entries.lookup name = some (.alias underlying) := by
  rw [hc.resolve_eq] at h
  cases hstripped : type.stripPointers with
  | named name =>
    rw [hstripped, resolveTurn] at h
    split at h
    · cases h
    · cases h
    · cases h
    · next underlying hentry => exact ⟨name, underlying, rfl, hentry⟩
  | pointer target => exact absurd hstripped (type.stripPointers_ne_pointer target)
  | _ =>
    rw [hstripped] at h
    cases h

theorem membersWithin (hc : c.Closed) : ∀ (fuel : Nat) (before : List String) (type : TypeExpr),
    (∀ name, type.targetName? = some name → (before ++ [name]).IsChain (TransGen c.AliasOf)) →
    c.entries.length ≤ before.length + fuel →
    c.membersWithin fuel type = (c.settle type).members
  | fuel, before, type, hleads, hfuel => by
    rw [Catalog.membersWithin.eq_def, ← settle_stripPointers, hc.settle_eq]
    dsimp only
    cases hresolve : c.resolve type.stripPointers with
    | none => rfl
    | some shape =>
      cases shape with
      | pointer inner =>
        obtain ⟨name, underlying, hname, hentry⟩ := hc.alias_of_resolve hresolve
        have hchain := hleads name (by rw [TypeExpr.targetName?, hname]; rfl)
        have hlt := (hc.length_lt hchain hentry).trans_le c.length_declaredNames_le
        cases fuel with
        | zero => omega
        | succ fuel =>
          refine hc.membersWithin fuel (before ++ [name]) inner (fun next hnext => ?_) ?_
          · exact isChain_append_step hchain (hc.leads_of_resolve hnext _ hresolve name hname)
          · rw [List.length_append, List.length_singleton]
            omega
      | _ => rfl

/-- **The members of a type are those of the shape behind its pointers.** -/
theorem members_eq_settle (hc : c.Closed) (type : TypeExpr) :
    c.members type = (c.settle type).members :=
  hc.membersWithin c.entries.length [] type (fun _ _ => List.isChain_singleton _) (by simp)

/-- **The search for members goes from turn to turn.** -/
theorem members_eq (hc : c.Closed) (type : TypeExpr) :
    c.members type = c.membersTurn c.members type := by
  rw [hc.members_eq_settle, hc.settle_eq, membersTurn]
  cases c.resolve type with
  | none => rfl
  | some shape =>
    cases shape with
    | pointer target => exact (hc.members_eq_settle target).symm
    | _ => rfl

end Closed

end Catalog

end Fieldwise
