import Mathlib
import Fieldwise.Proofs.Catalog.Acceptance
import Fieldwise.Proofs.Catalog.Entries

/-!
# Which member is found under a name

* `CatalogFile.Candidate` : a member that a record has itself or through records that it embeds,
  with the chain of embedded fields that leads to it.
* `Candidate.Nearer` : fewer steps first, then the chain that turns off earlier, then the member
  declared earlier, fields before methods.
* `FieldSet.lookup_ofStruct` : the level by level construction finds under each name the first
  candidate in a list of all of them.
* `FieldSet.get?_ofStruct_eq_some_iff` : of a well-formed file it has the nearest one.

Levels forget how a record was reached and keep only its first occurrence. Neither matters to a
search for the first member of a name (`SameFinds`), so the levels can be compared with all chains,
which are sorted.
-/

set_option autoImplicit false

namespace Fieldwise

/-! ## The first element that passes -/

/-- In a sorted list the first element that passes is the one that no other that passes comes
before. -/
theorem find?_eq_some_iff_least {α : Type} {R : α → α → Prop} {p : α → Bool} {xs : List α}
    (hsorted : xs.Pairwise R) (hasymm : ∀ a b, R a b → ¬ R b a) {x : α} :
    xs.find? p = some x ↔ x ∈ xs ∧ p x = true ∧ ∀ y ∈ xs, p y = true → ¬ R y x := by
  induction xs with
  | nil => simp
  | cons a rest ih =>
    obtain ⟨hfirst, hrest⟩ := List.pairwise_cons.mp hsorted
    rw [List.find?_cons]
    cases ha : p a with
    | true =>
      simp only [Option.some.injEq]
      constructor
      · rintro rfl
        refine ⟨List.mem_cons_self, ha, fun y hy _ => ?_⟩
        rcases List.mem_cons.mp hy with rfl | hy
        · exact fun h => hasymm _ _ h h
        · exact hasymm _ _ (hfirst y hy)
      · rintro ⟨hx, -, hleast⟩
        rcases List.mem_cons.mp hx with rfl | hx
        · rfl
        · exact absurd (hfirst x hx) (hleast a List.mem_cons_self ha)
    | false =>
      rw [ih hrest]
      constructor
      · rintro ⟨hx, hpx, hleast⟩
        refine ⟨List.mem_cons_of_mem _ hx, hpx, fun y hy hpy => ?_⟩
        rcases List.mem_cons.mp hy with rfl | hy
        · rw [ha] at hpy
          cases hpy
        · exact hleast y hy hpy
      · rintro ⟨hx, hpx, hleast⟩
        refine ⟨?_, hpx, fun y hy => hleast y (List.mem_cons_of_mem _ hy)⟩
        rcases List.mem_cons.mp hx with rfl | hx
        · rw [ha] at hpx
          cases hpx
        · exact hx

/-- Two lists of names are searched alike: the first element of a kind that their members have to
offer is the same. -/
def SameFinds (names names' : List String) : Prop :=
  ∀ (f : String → List (String × TypeExpr)) (p : String × TypeExpr → Bool),
    (names.flatMap f).find? p = (names'.flatMap f).find? p

namespace SameFinds

variable {names names' : List String}

theorem eraseDups : ∀ names : List String, SameFinds names.eraseDups names
  | [] => fun _ _ => rfl
  | a :: rest => fun f p => by
    have ih := eraseDups (rest.filter fun b => !b == a) f p
    rw [List.eraseDups_cons, List.flatMap_cons, List.flatMap_cons, List.find?_append,
      List.find?_append, ih]
    cases ha : (f a).find? p with
    | some x => simp
    | none =>
      rw [Option.none_or, Option.none_or]
      -- a second occurrence of `a` offers nothing that the first did not
      clear ih
      induction rest with
      | nil => rfl
      | cons b rest ih =>
        by_cases hb : b = a
        · subst hb
          simpa [ha] using ih
        · simp [hb, ih]
termination_by names => names.length
decreasing_by
  simp only [List.length_cons]
  exact Nat.lt_succ_of_le (List.length_filter_le _ _)

theorem flatMap (h : SameFinds names names') (g : String → List String) :
    SameFinds (names.flatMap g) (names'.flatMap g) := by
  intro f p
  rw [List.flatMap_assoc, List.flatMap_assoc]
  exact h _ p

theorem trans {names'' : List String} (h : SameFinds names names')
    (h' : SameFinds names' names'') : SameFinds names names'' :=
  fun f p => (h f p).trans (h' f p)

end SameFinds

/-! ## Places in a list -/

section Placed

variable {α β : Type}

/-- What the elements of a list yield, with the places of the elements counted from `start`. -/
def placed (f : α → Option β) (start : Nat) (xs : List α) : List (Nat × β) :=
  (xs.zipIdx start).filterMap fun x => (f x.1).map fun b => (x.2, b)

theorem map_placed (f : α → Option β) (start : Nat) (xs : List α) :
    (placed f start xs).map Prod.snd = xs.filterMap f := by
  induction xs generalizing start with
  | nil => rfl
  | cons a rest ih =>
    have ih := ih (start + 1)
    simp only [placed, List.zipIdx_cons, List.filterMap_cons] at ih ⊢
    cases f a <;> simp [ih]

theorem mem_placed {f : α → Option β} {start i : Nat} {b : β} {xs : List α} :
    (i, b) ∈ placed f start xs ↔ ∃ j a, xs[j]? = some a ∧ f a = some b ∧ i = start + j := by
  simp only [placed, List.mem_filterMap, Prod.exists, List.mk_mem_zipIdx_iff_le_and_getElem?_sub,
    Option.map_eq_some_iff, Prod.mk.injEq]
  constructor
  · rintro ⟨a, i, ⟨hle, ha⟩, b, hb, rfl, rfl⟩
    exact ⟨i - start, a, ha, hb, by omega⟩
  · rintro ⟨j, a, ha, hb, rfl⟩
    exact ⟨a, start + j, ⟨by omega, by rwa [Nat.add_sub_cancel_left]⟩, b, hb, rfl, rfl⟩

theorem placed_sorted (f : α → Option β) (start : Nat) (xs : List α) :
    (placed f start xs).Pairwise fun a b => a.1 < b.1 := by
  have hplaces : (xs.zipIdx start).Pairwise fun a b => a.2 < b.2 := by
    rw [← List.pairwise_map, List.zipIdx_map_snd]
    exact List.pairwise_lt_range'
  refine List.pairwise_filterMap.mpr (hplaces.imp fun {a b} hlt p hp q hq => ?_)
  obtain ⟨_, -, rfl⟩ := Option.map_eq_some_iff.mp hp
  obtain ⟨_, -, rfl⟩ := Option.map_eq_some_iff.mp hq
  exact hlt

end Placed

namespace TypeDecl

/-! ## The members of a declaration -/

/-- The declaration offers templates a member of the given name and type. Fields have the first
places, methods those behind them. -/
inductive Offers (decl : TypeDecl) : Nat → String → TypeExpr → Prop
  | field {i : Nat} {f : FieldDecl} (hf : decl.fields[i]? = some f)
    (hvisible : f.embedded = true ∨ isExported f.fieldName = true) :
    Offers decl i f.fieldName f.type
  | method {i : Nat} {m : MethodDecl} {result : TypeExpr} (hm : decl.methods[i]? = some m)
    (hexported : isExported m.name = true) (hparams : m.params = [])
    (hresults : m.results = [result]) :
    Offers decl (decl.fields.length + i) m.name result

/-- What a field offers. -/
def offeredField (f : FieldDecl) : Option (String × TypeExpr) :=
  if f.isVisible then some (f.fieldName, f.type) else none

/-- What a method offers. -/
def offeredMethod (m : MethodDecl) : Option (String × TypeExpr) :=
  if isExported m.name then m.templateResult?.map fun result => (m.name, result) else none

/-- The members of a declaration with their places, in order. -/
def placedMembers (decl : TypeDecl) : List (Nat × String × TypeExpr) :=
  placed offeredField 0 decl.fields ++ placed offeredMethod decl.fields.length decl.methods

theorem map_placedMembers (decl : TypeDecl) :
    decl.placedMembers.map Prod.snd = decl.ownMembers := by
  have hfields : ∀ fields : List FieldDecl, fields.filterMap offeredField =
      (fields.filter FieldDecl.isVisible).map fun f => (f.fieldName, f.type) := by
    intro fields
    rw [← List.filterMap_eq_map, List.filterMap_filter]
    rfl
  have hmethods : ∀ methods : List MethodDecl, methods.filterMap offeredMethod =
      (methods.filter fun m => isExported m.name).filterMap fun m =>
        m.templateResult?.map fun result => (m.name, result) := by
    intro methods
    rw [List.filterMap_filter]
    rfl
  rw [placedMembers, List.map_append, map_placed, map_placed, hfields, hmethods, ownMembers]

theorem offeredField_eq_some {f : FieldDecl} {member : String × TypeExpr} :
    offeredField f = some member ↔
      (f.embedded = true ∨ isExported f.fieldName = true) ∧ (f.fieldName, f.type) = member := by
  simp [offeredField, FieldDecl.isVisible]

theorem offeredMethod_eq_some {m : MethodDecl} {member : String × TypeExpr} :
    offeredMethod m = some member ↔
      isExported m.name = true ∧ m.params = [] ∧
        ∃ result, m.results = [result] ∧ (m.name, result) = member := by
  obtain ⟨name, params, results⟩ := m
  rcases params with _ | ⟨p, params⟩ <;> rcases results with _ | ⟨r, _ | ⟨r', results⟩⟩ <;>
    simp [offeredMethod, MethodDecl.templateResult?]

theorem mem_placedMembers {decl : TypeDecl} {place : Nat} {name : String} {type : TypeExpr} :
    (place, name, type) ∈ decl.placedMembers ↔ decl.Offers place name type := by
  rw [placedMembers, List.mem_append, mem_placed, mem_placed]
  constructor
  · rintro (⟨i, f, hf, hoffered, rfl⟩ | ⟨i, m, hm, hoffered, rfl⟩)
    · obtain ⟨hvisible, hmember⟩ := offeredField_eq_some.mp hoffered
      cases hmember
      rw [Nat.zero_add]
      exact .field hf hvisible
    · obtain ⟨hexported, hparams, result, hresults, hmember⟩ := offeredMethod_eq_some.mp hoffered
      cases hmember
      exact .method hm hexported hparams hresults
  · rintro (⟨hf, hvisible⟩ | ⟨hm, hexported, hparams, hresults⟩)
    · exact .inl ⟨_, _, hf, offeredField_eq_some.mpr ⟨hvisible, rfl⟩, (Nat.zero_add _).symm⟩
    · exact .inr ⟨_, _, hm,
        offeredMethod_eq_some.mpr ⟨hexported, hparams, _, hresults, rfl⟩, rfl⟩

theorem placedMembers_sorted (decl : TypeDecl) :
    decl.placedMembers.Pairwise fun a b => a.1 < b.1 := by
  refine List.pairwise_append.mpr ⟨placed_sorted _ _ _, placed_sorted _ _ _, ?_⟩
  rintro ⟨i, a⟩ ha ⟨j, b⟩ hb
  obtain ⟨i', f, hf, -, rfl⟩ := mem_placed.mp ha
  obtain ⟨j', -, -, -, rfl⟩ := mem_placed.mp hb
  have hlt := (List.getElem?_eq_some_iff.mp hf).1
  simp only
  omega

end TypeDecl

namespace CatalogFile

variable {types : List (String × TypeDecl)} {record : String}

/-! ## Chains of embedded fields -/

/-- The embedded fields at the given positions lead from a record to another one, pointers
ignored. -/
inductive Leads (types : List (String × TypeDecl)) (record : String) : List Nat → String → Prop
  | here : Leads types record [] record
  | step {path : List Nat} {owner target : String} {decl : TypeDecl} {i : Nat} {f : FieldDecl}
    (h : Leads types record path owner) (hdecl : types.lookup owner = some decl)
    (hf : decl.fields[i]? = some f) (hembedded : f.embedded = true)
    (htarget : f.type.targetName? = some target) : Leads types record (path ++ [i]) target

/-- The empty chain stays where it starts. -/
theorem Leads.eq_of_nil {owner : String} (h : Leads types record [] owner) : owner = record := by
  generalize hpath : [] = path at h
  cases h with
  | here => rfl
  | step => simp at hpath

/-- The first field of a chain leads to an embedded record, and the rest goes on from there. -/
theorem leads_cons_iff {i : Nat} {path : List Nat} {owner : String} :
    Leads types record (i :: path) owner ↔
      ∃ decl f target, types.lookup record = some decl ∧ decl.fields[i]? = some f ∧
        f.embedded = true ∧ f.type.targetName? = some target ∧ Leads types target path owner := by
  constructor
  · intro h
    generalize hwhole : i :: path = whole at h
    induction h generalizing path with
    | here => cases hwhole
    | @step before between target decl j f hbefore hdecl hf hembedded htarget ih =>
      cases before with
      | nil =>
        cases hwhole
        have howner := hbefore.eq_of_nil
        subst howner
        exact ⟨decl, f, target, hdecl, hf, hembedded, htarget, .here⟩
      | cons k before =>
        cases hwhole
        obtain ⟨first, g, next, hfirst, hg, hgembedded, hnext, hleads⟩ := ih rfl
        exact ⟨first, g, next, hfirst, hg, hgembedded, hnext,
          hleads.step hdecl hf hembedded htarget⟩
  · rintro ⟨decl, f, target, hdecl, hf, hembedded, htarget, hleads⟩
    induction hleads with
    | here => exact Leads.here.step hdecl hf hembedded htarget
    | step _ hdecl' hf' hembedded' htarget' ih => exact ih.step hdecl' hf' hembedded' htarget'

/-- A member that templates may find under a name on a record: where it is declared, and by which
embedded fields it is reached. -/
structure Candidate (types : List (String × TypeDecl)) (record key : String) where
  path : List Nat
  owner : String
  decl : TypeDecl
  place : Nat
  name : String
  type : TypeExpr
  leads : Leads types record path owner
  declared : types.lookup owner = some decl
  offers : decl.Offers place name type
  named : Text.lowercase name = Text.lowercase key

/-- A candidate that is reached without a step is offered by the record itself. -/
theorem Candidate.offers_of_nil {key : String} {decl : TypeDecl}
    (hdecl : types.lookup record = some decl) (a : Candidate types record key)
    (hpath : a.path = []) : decl.Offers a.place a.name a.type := by
  have howner : a.owner = record := (hpath ▸ a.leads).eq_of_nil
  have hown : a.decl = decl := by
    have hdeclared := a.declared
    rw [howner, hdecl] at hdeclared
    exact (Option.some.inj hdeclared).symm
  exact hown ▸ a.offers

/-- The one candidate is reached in fewer steps than the other; or in as many, by a chain that
turns off earlier; or by the same chain, and is declared no later. -/
def Candidate.Nearer {key : String} (a b : Candidate types record key) : Prop :=
  a.path.length < b.path.length ∨
    (a.path.length = b.path.length ∧
      (a.path < b.path ∨ (a.path = b.path ∧ a.place ≤ b.place)))

/-! ## All chains, in order -/

/-- What an embedded field leads to. -/
def embeddedTarget? (f : FieldDecl) : Option String :=
  if f.embedded then f.type.targetName? else none

/-- The embedded fields of a declared name with their places. -/
def placedEmbedded (types : List (String × TypeDecl)) (owner : String) : List (Nat × String) :=
  ((types.lookup owner).map fun decl => placed embeddedTarget? 0 decl.fields).getD []

/-- The members of a declared name with their places. -/
def placedMembers (types : List (String × TypeDecl)) (owner : String) :
    List (Nat × String × TypeExpr) :=
  ((types.lookup owner).map TypeDecl.placedMembers).getD []

/-- The chains of a given length with what they lead to, those that turn off earlier first. -/
def chains (types : List (String × TypeDecl)) (record : String) :
    Nat → List (List Nat × String)
  | 0 => [([], record)]
  | count + 1 =>
    (chains types record count).flatMap fun chain =>
      (placedEmbedded types chain.2).map fun x => (chain.1 ++ [x.1], x.2)

theorem map_placedEmbedded (owner : String) :
    (placedEmbedded types owner).map Prod.snd = embedded types owner := by
  have hfields : ∀ fields : List FieldDecl, fields.filterMap embeddedTarget? =
      (fields.filter FieldDecl.embedded).filterMap fun f => f.type.targetName? := by
    intro fields
    rw [List.filterMap_filter]
    rfl
  rw [placedEmbedded, embedded]
  cases types.lookup owner with
  | none => rfl
  | some decl => exact (map_placed _ _ _).trans (hfields decl.fields)

theorem mem_placedEmbedded {owner target : String} {i : Nat} :
    (i, target) ∈ placedEmbedded types owner ↔
      ∃ decl f, types.lookup owner = some decl ∧ decl.fields[i]? = some f ∧
        f.embedded = true ∧ f.type.targetName? = some target := by
  cases h : types.lookup owner with
  | none => simp [placedEmbedded, h]
  | some decl => simp [placedEmbedded, h, mem_placed, embeddedTarget?]

theorem mem_chains {count : Nat} {path : List Nat} {owner : String} :
    (path, owner) ∈ chains types record count ↔
      Leads types record path owner ∧ path.length = count := by
  constructor
  · intro h
    induction count generalizing path owner with
    | zero =>
      cases List.mem_singleton.mp h
      exact ⟨.here, rfl⟩
    | succ count ih =>
      obtain ⟨⟨before, between⟩, hbefore, h⟩ := List.mem_flatMap.mp h
      obtain ⟨⟨i, target⟩, hi, h⟩ := List.mem_map.mp h
      cases h
      obtain ⟨hleads, hlength⟩ := ih hbefore
      obtain ⟨decl, f, hdecl, hf, hembedded, htarget⟩ := mem_placedEmbedded.mp hi
      exact ⟨hleads.step hdecl hf hembedded htarget, by simp [hlength]⟩
  · rintro ⟨hleads, rfl⟩
    induction hleads with
    | here => exact List.mem_singleton_self _
    | step _ hdecl hf hembedded htarget ih =>
      rw [List.length_append]
      exact List.mem_flatMap.mpr ⟨_, ih, List.mem_map.mpr
        ⟨(_, _), mem_placedEmbedded.mpr ⟨_, _, hdecl, hf, hembedded, htarget⟩, rfl⟩⟩

theorem placedEmbedded_sorted (types : List (String × TypeDecl)) (owner : String) :
    (placedEmbedded types owner).Pairwise fun a b => a.1 < b.1 := by
  rw [placedEmbedded]
  cases types.lookup owner with
  | none => exact .nil
  | some decl => exact placed_sorted _ _ _

/-- Of two chains of one length, the one that turns off earlier still does when both go on. -/
theorem append_lt_append {a b : List Nat} (hlength : a.length = b.length) (h : a < b)
    (c d : List Nat) : a ++ c < b ++ d := by
  induction h with
  | nil => cases hlength
  | rel hlt => exact .rel hlt
  | cons _ ih => exact .cons (ih (Nat.succ_inj.mp hlength))

theorem chains_sorted (record : String) (count : Nat) :
    (chains types record count).Pairwise fun a b => a.1 < b.1 := by
  induction count with
  | zero => exact List.pairwise_singleton _ _
  | succ count ih =>
    refine List.pairwise_flatMap.mpr ⟨fun chain _ => ?_, ?_⟩
    · rw [List.pairwise_map]
      exact (placedEmbedded_sorted types chain.2).imp fun hlt => List.append_left_lt (.rel hlt)
    · refine ih.imp_of_mem fun {a b} ha hb hlt x hx y hy => ?_
      obtain ⟨_, -, rfl⟩ := List.mem_map.mp hx
      obtain ⟨_, -, rfl⟩ := List.mem_map.mp hy
      have hlength := (mem_chains.mp ha).2.trans (mem_chains.mp hb).2.symm
      exact append_lt_append hlength hlt _ _

/-! ## All candidates, in order -/

/-- The one place, a chain and a position behind it, comes before the other. -/
def Ahead (a b : List Nat × Nat) : Prop :=
  a.1.length < b.1.length ∨
    (a.1.length = b.1.length ∧ (a.1 < b.1 ∨ (a.1 = b.1 ∧ a.2 < b.2)))

theorem Ahead.asymm {a b : List Nat × Nat} (h : Ahead a b) : ¬ Ahead b a := by
  rintro (h' | ⟨hlength', h'⟩)
  · rcases h with h | ⟨hlength, -⟩ <;> omega
  rcases h with h | ⟨-, h⟩
  · omega
  rcases h with h | ⟨hpath, h⟩ <;> rcases h' with h' | ⟨hpath', h'⟩
  · exact List.lt_asymm h h'
  · exact List.lt_irrefl _ (hpath' ▸ h)
  · exact List.lt_irrefl _ (hpath ▸ h')
  · omega

/-- The members that chains of a given length lead to, with their places. -/
def membersAt (types : List (String × TypeDecl)) (record : String) (count : Nat) :
    List ((List Nat × Nat) × String × TypeExpr) :=
  (chains types record count).flatMap fun chain =>
    (placedMembers types chain.2).map fun x => ((chain.1, x.1), x.2)

/-- The members of a declared name without their places. -/
theorem map_placedMembers (owner : String) :
    (placedMembers types owner).map (fun x => x.2) =
      ((types.lookup owner).map TypeDecl.ownMembers).getD [] := by
  rw [placedMembers]
  cases types.lookup owner with
  | none => rfl
  | some decl => exact decl.map_placedMembers

theorem mem_placedMembers {owner name : String} {place : Nat} {type : TypeExpr} :
    (place, name, type) ∈ placedMembers types owner ↔
      ∃ decl, types.lookup owner = some decl ∧ decl.Offers place name type := by
  cases h : types.lookup owner with
  | none => simp [placedMembers, h]
  | some decl => simp [placedMembers, h, TypeDecl.mem_placedMembers]

theorem mem_membersAt {count place : Nat} {path : List Nat} {name : String} {type : TypeExpr} :
    ((path, place), name, type) ∈ membersAt types record count ↔
      path.length = count ∧ ∃ owner decl, Leads types record path owner ∧
        types.lookup owner = some decl ∧ decl.Offers place name type := by
  simp only [membersAt, List.mem_flatMap, List.mem_map, Prod.exists, Prod.mk.injEq]
  constructor
  · rintro ⟨path, owner, hchain, place, name, type, hmember, ⟨rfl, rfl⟩, rfl, rfl⟩
    obtain ⟨hleads, hlength⟩ := mem_chains.mp hchain
    obtain ⟨decl, hdecl, hoffers⟩ := mem_placedMembers.mp hmember
    exact ⟨hlength, owner, decl, hleads, hdecl, hoffers⟩
  · rintro ⟨hlength, owner, decl, hleads, hdecl, hoffers⟩
    exact ⟨path, owner, mem_chains.mpr ⟨hleads, hlength⟩, place, name, type,
      mem_placedMembers.mpr ⟨decl, hdecl, hoffers⟩, ⟨rfl, rfl⟩, rfl, rfl⟩

theorem membersAt_sorted (record : String) (count : Nat) :
    (membersAt types record count).Pairwise fun a b => Ahead a.1 b.1 := by
  refine List.pairwise_flatMap.mpr ⟨fun chain _ => ?_, ?_⟩
  · rw [List.pairwise_map]
    have hplaces : (placedMembers types chain.2).Pairwise fun a b => a.1 < b.1 := by
      rw [placedMembers]
      cases types.lookup chain.2 with
      | none => exact .nil
      | some decl => exact decl.placedMembers_sorted
    exact hplaces.imp fun hlt => .inr ⟨rfl, .inr ⟨rfl, hlt⟩⟩
  · refine (chains_sorted record count).imp_of_mem fun {a b} ha hb hlt x hx y hy => ?_
    obtain ⟨_, -, rfl⟩ := List.mem_map.mp hx
    obtain ⟨_, -, rfl⟩ := List.mem_map.mp hy
    exact .inr ⟨(mem_chains.mp ha).2.trans (mem_chains.mp hb).2.symm, .inl hlt⟩

theorem flatMap_membersAt_sorted (record : String) (depth : Nat) :
    ((List.range depth).flatMap (membersAt types record)).Pairwise
      fun a b => Ahead a.1 b.1 := by
  refine List.pairwise_flatMap.mpr ⟨fun count _ => membersAt_sorted record count, ?_⟩
  refine List.pairwise_lt_range.imp fun {m n} hlt x hx y hy => ?_
  obtain ⟨⟨path, place⟩, name, type⟩ := x
  obtain ⟨⟨path', place'⟩, name', type'⟩ := y
  have hlength := (mem_membersAt.mp hx).1
  have hlength' := (mem_membersAt.mp hy).1
  refine .inl ?_
  simp only
  omega

/-! ## How long a chain can be -/

/-- The names on the way along a chain differ from each other, where no record embeds itself. -/
theorem Leads.exists_way
    (hone : ∀ entry ∈ types,
      entry.2.underlying = none ∨ (entry.2.fields = [] ∧ entry.2.methods = []))
    (hembeds : ∀ entry ∈ types, ∀ f ∈ entry.2.fields, f.embedded = true →
      ∃ name decl, f.type.targetName? = some name ∧ types.lookup name = some decl ∧
        decl.underlying = none)
    (hacyclic : Acyclic (Embeds types)) (hrecord : record ∈ types.map Prod.fst)
    {path : List Nat} {owner : String} (h : Leads types record path owner) :
    ∃ before : List String, before.length = path.length ∧
      (before ++ [owner]).IsChain (Embeds types) ∧ (before ++ [owner]).Nodup ∧
        ∀ name ∈ before ++ [owner], name ∈ types.map Prod.fst := by
  induction h with
  | here => exact ⟨[], rfl, List.isChain_singleton _, List.nodup_singleton _,
      fun name hname => List.mem_singleton.mp hname ▸ hrecord⟩
  | @step path owner target decl i f _ hdecl hf hembedded htarget ih =>
    obtain ⟨before, hlength, hchain, hnodup, hdeclared⟩ := ih
    have htargetEmbedded : target ∈ embedded types owner :=
      mem_embedded.mpr ⟨decl, f, hdecl, List.mem_of_getElem? hf, hembedded, htarget⟩
    have hchain' := isChain_append_step hchain (embeds_of_mem_embedded hone htargetEmbedded)
    have hnew : target ∉ before ++ [owner] := fun hmem =>
      hacyclic target (transGen_of_mem_chain hchain' hmem)
    refine ⟨before ++ [owner], by simp [hlength], hchain', ?_, ?_⟩
    · rw [← List.concat_eq_append]
      exact hnodup.concat hnew
    · exact forall_mem_append_singleton hdeclared
        (declared_of_mem_embedded hembeds htargetEmbedded)

/-- A chain has fewer steps than there are declarations. -/
theorem WellFormed.length_lt {file : CatalogFile} (w : file.WellFormed)
    (hrecord : record ∈ file.types.map Prod.fst) {path : List Nat} {owner : String}
    (h : Leads file.types record path owner) : path.length < file.types.length := by
  obtain ⟨before, hlength, -, hnodup, hdeclared⟩ :=
    h.exists_way w.one_form w.embeds_struct w.embedding_acyclic hrecord
  have hle := length_le_of_nodup_declared hnodup hdeclared
  rw [List.length_append, List.length_singleton] at hle
  omega

/-! ## Candidates and their list -/

theorem Candidate.nearer_iff {key : String} {a b : Candidate types record key} :
    a.Nearer b ↔ ¬ Ahead (b.path, b.place) (a.path, a.place) := by
  simp only [Nearer, Ahead, not_or, not_and]
  constructor
  · rintro (h | ⟨hlength, h | ⟨hpath, h⟩⟩)
    · exact ⟨by omega, fun _ => by omega⟩
    · refine ⟨by omega, fun _ => ⟨List.lt_asymm h, fun hpath => ?_⟩⟩
      exact absurd h (hpath ▸ List.lt_irrefl _)
    · exact ⟨by omega, fun _ => ⟨hpath ▸ List.lt_irrefl _, fun _ => by omega⟩⟩
  · rintro ⟨hle, h⟩
    rcases Nat.lt_or_eq_of_le (Nat.le_of_not_lt hle) with hlt | hlength
    · exact .inl hlt
    obtain ⟨hnot, hplace⟩ := h hlength.symm
    refine .inr ⟨hlength, ?_⟩
    by_cases hlt : a.path < b.path
    · exact .inl hlt
    · have hpath : a.path = b.path :=
        List.le_antisymm (List.not_lt.mp hnot) (List.not_lt.mp hlt)
      exact .inr ⟨hpath, Nat.le_of_not_lt (hplace hpath.symm)⟩

theorem WellFormed.mem_flatMap_membersAt {file : CatalogFile} (w : file.WellFormed)
    (hrecord : record ∈ file.types.map Prod.fst) {path : List Nat} {place : Nat} {name : String}
    {type : TypeExpr} :
    ((path, place), name, type) ∈
        (List.range file.types.length).flatMap (membersAt file.types record) ↔
      ∃ owner decl, Leads file.types record path owner ∧ file.types.lookup owner = some decl ∧
        decl.Offers place name type := by
  simp only [List.mem_flatMap, List.mem_range, mem_membersAt]
  constructor
  · rintro ⟨_, _, -, h⟩
    exact h
  · rintro ⟨owner, decl, hleads, h⟩
    exact ⟨_, w.length_lt hrecord hleads, rfl, owner, decl, hleads, h⟩

end CatalogFile

namespace FieldSet

open CatalogFile

variable {types : List (String × TypeDecl)}

/-! ## Level by level -/

/-- The members on the levels are searched like those that all chains lead to. -/
theorem find?_levels (p : String × TypeExpr → Bool) (record : String) (count : Nat) :
    ∀ (level : List String) (start : Nat),
      SameFinds level ((chains types record start).map Prod.snd) →
      ((levels types count level).flatMap (levelMembers types)).find? p =
        (((List.range' start count).flatMap (membersAt types record)).map Prod.snd).find? p := by
  induction count with
  | zero => exact fun _ _ _ => rfl
  | succ count ih =>
    intro level start hlevel
    have hmembers : (levelMembers types level).find? p =
        ((membersAt types record start).map Prod.snd).find? p := by
      rw [levelMembers, hlevel, List.flatMap_map, membersAt, List.map_flatMap]
      congr 2
      funext chain
      rw [List.map_map]
      exact (map_placedMembers chain.2).symm
    have hnext : SameFinds (nextLevel types level)
        ((chains types record (start + 1)).map Prod.snd) := by
      have hchains : (chains types record (start + 1)).map Prod.snd =
          ((chains types record start).map Prod.snd).flatMap (embedded types) := by
        simp only [chains, List.map_flatMap, List.flatMap_map, List.map_map,
          ← map_placedEmbedded]
        rfl
      rw [hchains]
      exact (SameFinds.eraseDups _).trans (hlevel.flatMap (embedded types))
    rw [flatMap_levels, List.range'_succ, List.flatMap_cons, List.map_append, List.find?_append,
      List.find?_append, hmembers, ih _ _ hnext]

/-- **A field set has under each name the first candidate** in the list of all of them. -/
theorem lookup_ofStruct (record key : String) :
    (ofStruct types record).entries.lookup key =
      (((List.range types.length).flatMap (membersAt types record)).find? fun member =>
        Text.lowercase member.2.1 == key).map fun member => member.2.2 := by
  have hstart : SameFinds [record] ((chains types record 0).map Prod.snd) := fun _ _ => rfl
  rw [ofStruct, lookup_insertAll key _ empty .nil, find?_levels _ record types.length _ 0 hstart,
    ← List.range_eq_range', List.find?_map, Option.map_map]
  simp [empty, Function.comp_def]

variable {file : CatalogFile} {record key : String}

/-- A member is missing exactly where there is no candidate. -/
theorem get?_ofStruct_eq_none_iff (w : file.WellFormed)
    (hrecord : record ∈ file.types.map Prod.fst) :
    (ofStruct file.types record).get? key = none ↔
      IsEmpty (Candidate file.types record key) := by
  rw [get?, lookup_ofStruct, Option.map_eq_none_iff, List.find?_eq_none]
  constructor
  · intro h
    refine ⟨fun a => ?_⟩
    have hmem := (w.mem_flatMap_membersAt hrecord).mpr
      ⟨a.owner, a.decl, a.leads, a.declared, a.offers⟩
    exact h _ hmem (beq_iff_eq.mpr a.named)
  · rintro ⟨hnone⟩ ⟨⟨path, place⟩, name, type⟩ hmem hnamed
    obtain ⟨owner, decl, hleads, hdeclared, hoffers⟩ :=
      (w.mem_flatMap_membersAt hrecord).mp hmem
    exact hnone ⟨path, owner, decl, place, name, type, hleads, hdeclared, hoffers,
      beq_iff_eq.mp hnamed⟩

/-- A member has the type of the candidate that no other comes before. -/
theorem get?_ofStruct_eq_some_iff (w : file.WellFormed)
    (hrecord : record ∈ file.types.map Prod.fst) {type : TypeExpr} :
    (ofStruct file.types record).get? key = some type ↔
      ∃ nearest : Candidate file.types record key, nearest.type = type ∧
        ∀ other : Candidate file.types record key, nearest.Nearer other := by
  have hsorted : ((List.range file.types.length).flatMap (membersAt file.types record)).Pairwise
      fun a b => Ahead a.1 b.1 := flatMap_membersAt_sorted record file.types.length
  simp only [get?, lookup_ofStruct, Option.map_eq_some_iff,
    find?_eq_some_iff_least hsorted fun _ _ => Ahead.asymm, Candidate.nearer_iff]
  constructor
  · rintro ⟨⟨⟨path, place⟩, name, type⟩, ⟨hmem, hnamed, hfirst⟩, rfl⟩
    obtain ⟨owner, decl, hleads, hdeclared, hoffers⟩ :=
      (w.mem_flatMap_membersAt hrecord).mp hmem
    refine ⟨⟨path, owner, decl, place, name, type, hleads, hdeclared, hoffers,
      beq_iff_eq.mp hnamed⟩, rfl, fun other => ?_⟩
    exact hfirst ((other.path, other.place), other.name, other.type)
      ((w.mem_flatMap_membersAt hrecord).mpr
        ⟨other.owner, other.decl, other.leads, other.declared, other.offers⟩)
      (beq_iff_eq.mpr other.named)
  · rintro ⟨nearest, rfl, hnearest⟩
    refine ⟨((nearest.path, nearest.place), nearest.name, nearest.type),
      ⟨(w.mem_flatMap_membersAt hrecord).mpr
        ⟨nearest.owner, nearest.decl, nearest.leads, nearest.declared, nearest.offers⟩,
      beq_iff_eq.mpr nearest.named, ?_⟩, rfl⟩
    rintro ⟨⟨path, place⟩, name, type⟩ hmem hnamed
    obtain ⟨owner, decl, hleads, hdeclared, hoffers⟩ :=
      (w.mem_flatMap_membersAt hrecord).mp hmem
    exact hnearest ⟨path, owner, decl, place, name, type, hleads, hdeclared, hoffers,
      beq_iff_eq.mp hnamed⟩

end FieldSet

end Fieldwise
