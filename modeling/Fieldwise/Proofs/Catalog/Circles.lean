import Fieldwise.Catalog.Acceptance
import Mathlib.Data.List.Chain
import Mathlib.Data.List.Nodup
import Mathlib.Logic.Relation

/-!
# Circles in a catalog

Two graphs over the declared names must be free of circles: `StandsFor`, from a name to the name
that it is another name for, and `Embeds`, from a record to the records that it embeds.

* `followUnderlying_ok`, `followUnderlying_error` : following underlying types from a name ends
  well only if no circle can be reached from it, and fails only on a circle.
* `mem_embedded` : what a name embeds.

That no circle can be reached from `a` is `Acc (flip R) a`: every walk along `R` from `a` ends.
Following takes fuel; it never runs out, since the names on the way to the present one are declared
and differ from each other (`length_le_of_nodup_declared`).
-/

set_option autoImplicit false

namespace Fieldwise

open Relation

/-- No walk along the relation comes back to where it started. -/
def Acyclic (R : String → String → Prop) : Prop :=
  ∀ a, ¬ TransGen R a a

theorem not_transGen_self {R : String → String → Prop} {a : String} (h : Acc (flip R) a) :
    ¬ TransGen R a a := by
  induction h with
  | intro a _ ih =>
    intro hcircle
    obtain ⟨b, hab, hba⟩ := TransGen.head'_iff.mp hcircle
    exact ih b hab (TransGen.tail' hba hab)

/-- Along a chain every name but the last leads to the last. -/
theorem transGen_of_mem_chain {R : String → String → Prop} {l : List String} {a b : String}
    (h : (l ++ [b]).IsChain R) (ha : a ∈ l) : TransGen R a b := by
  have hchain : (l ++ [b]).IsChain (TransGen R) := h.imp fun _ _ => TransGen.single
  rw [List.isChain_iff_pairwise, List.pairwise_append] at hchain
  exact hchain.2.2 a ha b (List.mem_singleton_self b)

theorem isChain_append_step {R : String → String → Prop} {l : List String} {a b : String}
    (h : (l ++ [a]).IsChain R) (hab : R a b) : (l ++ [a] ++ [b]).IsChain R := by
  rw [List.append_assoc, List.singleton_append, List.isChain_append_cons_cons]
  exact ⟨h, hab, List.isChain_singleton b⟩

theorem nodup_append_new {l : List String} {a : String} (h : l.Nodup)
    (hnew : ¬ l.contains a = true) : (l ++ [a]).Nodup := by
  rw [← List.concat_eq_append]
  exact h.concat fun ha => hnew (List.contains_iff_mem.mpr ha)

/-- What holds of the names of a list and of one more holds of them all. -/
theorem forall_mem_append_singleton {P : String → Prop} {l : List String} {a : String}
    (hl : ∀ n ∈ l, P n) (ha : P a) : ∀ n ∈ l ++ [a], P n := by
  intro n hn
  rcases List.mem_append.mp hn with hn | hn
  · exact hl n hn
  · rw [List.mem_singleton.mp hn]
    exact ha

namespace CatalogFile

variable {types : List (String × TypeDecl)}

/-- The declared name `a` is another name for `b`, or for a pointer to it. -/
def StandsFor (types : List (String × TypeDecl)) (a b : String) : Prop :=
  ∃ decl underlying, types.lookup a = some decl ∧ decl.underlying = some underlying ∧
    underlying.targetName? = some b

/-- The record `a` has an embedded field of type `b`, or of a pointer to it. -/
def Embeds (types : List (String × TypeDecl)) (a b : String) : Prop :=
  ∃ decl f, types.lookup a = some decl ∧ decl.underlying = none ∧ f ∈ decl.fields ∧
    f.embedded = true ∧ f.type.targetName? = some b

/-! ## Declared names -/

theorem mem_of_lookup {name : String} {decl : TypeDecl} (h : types.lookup name = some decl) :
    (name, decl) ∈ types := by
  obtain ⟨l, r, rfl, -⟩ := List.lookup_eq_some_iff.mp h
  simp

theorem declared_of_lookup {name : String} {decl : TypeDecl}
    (h : types.lookup name = some decl) : name ∈ types.map Prod.fst :=
  List.mem_map_of_mem (mem_of_lookup h)

/-- Different declared names are no more than there are declarations. -/
theorem length_le_of_nodup_declared {names : List String} (hnodup : names.Nodup)
    (hdeclared : ∀ name ∈ names, name ∈ types.map Prod.fst) : names.length ≤ types.length := by
  simpa using hnodup.length_le_of_subset hdeclared

/-! ## Underlying types -/

theorem underlyingName?_eq_some {a b : String} :
    underlyingName? types a = some b ↔ StandsFor types a b := by
  simp only [underlyingName?, StandsFor, Option.bind_eq_some_iff]
  constructor
  · rintro ⟨underlying, ⟨decl, hlookup, hunderlying⟩, htarget⟩
    exact ⟨decl, underlying, hlookup, hunderlying, htarget⟩
  · rintro ⟨decl, underlying, hlookup, hunderlying, htarget⟩
    exact ⟨underlying, ⟨decl, hlookup, hunderlying⟩, htarget⟩

/-- A name that stands for another is declared. -/
theorem StandsFor.declared {a b : String} (h : StandsFor types a b) :
    a ∈ types.map Prod.fst := by
  obtain ⟨decl, _, hlookup, -⟩ := h
  exact declared_of_lookup hlookup

/-- Following underlying types ends well only where every way ends. `before` leads to `current`. -/
theorem followUnderlying_ok :
    ∀ (fuel : Nat) (before : List String) (current : String), (before ++ [current]).Nodup →
      (∀ name ∈ before, name ∈ types.map Prod.fst) → types.length < before.length + fuel →
      followUnderlying types fuel (before ++ [current]) current = .ok () →
      Acc (flip (StandsFor types)) current
  | 0, before, current, hnodup, hdeclared, hfuel, _ => by
    have hle := length_le_of_nodup_declared (List.nodup_append.mp hnodup).1 hdeclared
    omega
  | fuel + 1, before, current, hnodup, hdeclared, hfuel, h => by
    rw [followUnderlying] at h
    split at h
    · rename_i hnone
      refine Acc.intro _ fun next hnext => ?_
      rw [underlyingName?_eq_some.mpr hnext] at hnone
      cases hnone
    · rename_i next hnext
      split at h
      · cases h
      rename_i hnew
      have hstands := underlyingName?_eq_some.mp hnext
      have hacc : Acc (flip (StandsFor types)) next := by
        refine followUnderlying_ok fuel (before ++ [current]) next (nodup_append_new hnodup hnew)
          (forall_mem_append_singleton hdeclared hstands.declared) ?_ h
        rw [List.length_append, List.length_singleton]
        omega
      refine Acc.intro _ fun other hother => ?_
      rw [underlyingName?_eq_some.mpr hother] at hnext
      cases hnext
      exact hacc

/-- Following underlying types fails only on a circle. -/
theorem followUnderlying_error {e : CatalogFault} :
    ∀ (fuel : Nat) (before : List String) (current : String),
      (before ++ [current]).IsChain (StandsFor types) →
      followUnderlying types fuel (before ++ [current]) current = .error e →
      ¬ Acyclic (StandsFor types)
  | 0, _, _, _, h => by cases h
  | fuel + 1, before, current, hchain, h => by
    rw [followUnderlying] at h
    split at h
    · cases h
    · rename_i next hnext
      have hchain' := isChain_append_step hchain (underlyingName?_eq_some.mp hnext)
      split at h
      · rename_i hseen
        intro hacyclic
        exact hacyclic next (transGen_of_mem_chain hchain' (List.contains_iff_mem.mp hseen))
      · exact followUnderlying_error fuel (before ++ [current]) next hchain' h

/-! ## Embedded records -/

/-- The names of the types that a declared name embeds. -/
def embedded (types : List (String × TypeDecl)) (name : String) : List String :=
  ((types.lookup name).map TypeDecl.embeds).getD []

theorem mem_embedded {a b : String} :
    b ∈ embedded types a ↔ ∃ decl f, types.lookup a = some decl ∧ f ∈ decl.fields ∧
      f.embedded = true ∧ f.type.targetName? = some b := by
  cases h : types.lookup a <;> simp [embedded, TypeDecl.embeds, h, and_assoc]

theorem Embeds.mem_embedded {a b : String} (h : Embeds types a b) : b ∈ embedded types a := by
  obtain ⟨decl, f, hlookup, -, hf, hembedded, htarget⟩ := h
  exact CatalogFile.mem_embedded.mpr ⟨decl, f, hlookup, hf, hembedded, htarget⟩

end CatalogFile

end Fieldwise
