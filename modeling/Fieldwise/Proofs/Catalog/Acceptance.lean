import Fieldwise.Catalog.Basic
import Fieldwise.Proofs.Catalog.Circles

/-!
# Which catalogs are accepted, exactly

* `CatalogFile.WellFormed` : what a catalog file must satisfy, said without any order of checks.
* `checkForm_ok_iff`, `checkReferences_ok_iff`, `checkUnderlying_ok_iff` : what each kind of check
  accepts.
* `check_ok_iff` : what passes all checks is well formed, but for circles of embedded records.

Those circles are met when the field sets are built, which may rely on the checks before: embedded
records are declared, and another name embeds nothing.
-/

set_option autoImplicit false

namespace Fieldwise

open Relation

/-- Every type that a declaration mentions. -/
def TypeDecl.mentioned (decl : TypeDecl) : List TypeExpr :=
  decl.underlying.toList ++ decl.fields.map FieldDecl.type ++
    decl.methods.flatMap fun m => m.params ++ m.results

namespace CatalogFile

/-- What makes a catalog file acceptable. -/
structure WellFormed (file : CatalogFile) : Prop where
  not_builtin : ∀ entry ∈ file.types, entry.1 ∉ builtinScalars
  one_form : ∀ entry ∈ file.types,
    entry.2.underlying = none ∨ (entry.2.fields = [] ∧ entry.2.methods = [])
  named : ∀ entry ∈ file.types, ∀ f ∈ entry.2.fields, f.embedded = false → f.name ≠ ""
  known : ∀ entry ∈ file.types, ∀ type ∈ entry.2.mentioned, ∀ name ∈ type.names,
    name ∈ builtinScalars ∨ name ∈ file.types.map Prod.fst
  embeds_struct : ∀ entry ∈ file.types, ∀ f ∈ entry.2.fields, f.embedded = true →
    ∃ name decl, f.type.targetName? = some name ∧ file.types.lookup name = some decl ∧
      decl.underlying = none
  underlying_acyclic : Acyclic (StandsFor file.types)
  embedding_acyclic : Acyclic (Embeds file.types)

/-! ## Single checks -/

theorem checkEach_ok_iff {α : Type} (check : α → Except CatalogFault Unit) (xs : List α) :
    checkEach check xs = .ok () ↔ ∀ x ∈ xs, check x = .ok () := by
  induction xs with
  | nil => simp [checkEach]
  | cons x xs ih =>
    rw [checkEach, List.forall_mem_cons, ← ih]
    split
    · rename_i e he
      simp [he]
    · rename_i he
      simp [he]

theorem checkNamed_ok_iff {owner : String} {f : FieldDecl} :
    checkNamed owner f = .ok () ↔ (f.embedded = false → f.name ≠ "") := by
  cases hf : f.embedded <;> simp [checkNamed, hf]

theorem checkForm_ok_iff {entry : String × TypeDecl} :
    checkForm entry = .ok () ↔
      entry.1 ∉ builtinScalars ∧
        (entry.2.underlying = none ∨ (entry.2.fields = [] ∧ entry.2.methods = [])) ∧
          ∀ f ∈ entry.2.fields, f.embedded = false → f.name ≠ "" := by
  obtain ⟨name, decl⟩ := entry
  simp only [checkForm]
  split
  · rename_i hbuiltin
    simp [List.contains_iff_mem.mp hbuiltin]
  rename_i hfree
  have hfree' : name ∉ builtinScalars := fun h => hfree (List.contains_iff_mem.mpr h)
  split
  · rename_i hboth
    simp only [Bool.and_eq_true, Option.isSome_iff_ne_none, Bool.not_eq_true',
      Bool.and_eq_false_iff, List.isEmpty_eq_false_iff] at hboth
    simp only [hboth.1, false_or, reduceCtorEq, false_iff, not_and]
    rintro - ⟨hfields, hmethods⟩
    rcases hboth.2 with h | h
    · exact absurd hfields h
    · exact absurd hmethods h
  · rename_i hone
    have hone' : decl.underlying = none ∨ (decl.fields = [] ∧ decl.methods = []) := by
      cases h : decl.underlying
      · exact .inl rfl
      · simpa [h] using hone
    simp only [checkEach_ok_iff, checkNamed_ok_iff, hfree', hone', not_false_eq_true, true_and]

variable {types : List (String × TypeDecl)}

theorem isKnown_iff {name : String} :
    isKnown types name = true ↔ name ∈ builtinScalars ∨ name ∈ types.map Prod.fst := by
  simp [isKnown, Keyed.contains, @eq_comm _ name]

theorem checkKnown_ok_iff (referencedBy : String) (type : TypeExpr) :
    checkKnown types referencedBy type = .ok () ↔
      ∀ name ∈ type.names, name ∈ builtinScalars ∨ name ∈ types.map Prod.fst := by
  simp only [checkKnown, checkEach_ok_iff, ← isKnown_iff]
  refine forall₂_congr fun name _ => ?_
  split <;> simp [*]

theorem isDeclaredStruct_iff {name : String} :
    isDeclaredStruct types name = true ↔
      ∃ decl, types.lookup name = some decl ∧ decl.underlying = none := by
  cases h : types.lookup name <;> simp [isDeclaredStruct, TypeDecl.isStruct, h]

theorem checkField_ok_iff {owner : String} {f : FieldDecl} :
    checkField types owner f = .ok () ↔
      (∀ name ∈ f.type.names, name ∈ builtinScalars ∨ name ∈ types.map Prod.fst) ∧
        (f.embedded = true → ∃ name decl, f.type.targetName? = some name ∧
          types.lookup name = some decl ∧ decl.underlying = none) := by
  have htarget : f.type.targetName?.any (isDeclaredStruct types) = true ↔
      ∃ name decl, f.type.targetName? = some name ∧ types.lookup name = some decl ∧
        decl.underlying = none := by
    simp only [Option.any_eq_true, isDeclaredStruct_iff, exists_and_left]
  rw [checkField, ← htarget, ← checkKnown_ok_iff (owner ++ "." ++ f.fieldName)]
  split
  · rename_i e he
    simp [he]
  · rename_i he
    cases hf : f.embedded <;> cases f.type.targetName?.any (isDeclaredStruct types) <;> simp [he]

theorem checkMethod_ok_iff {owner : String} {m : MethodDecl} :
    checkMethod types owner m = .ok () ↔
      ∀ type ∈ m.params ++ m.results, ∀ name ∈ type.names,
        name ∈ builtinScalars ∨ name ∈ types.map Prod.fst := by
  simp only [checkMethod, checkEach_ok_iff, checkKnown_ok_iff]

theorem checkReferences_ok_iff {entry : String × TypeDecl} :
    checkReferences types entry = .ok () ↔
      (∀ type ∈ entry.2.mentioned, ∀ name ∈ type.names,
        name ∈ builtinScalars ∨ name ∈ types.map Prod.fst) ∧
      ∀ f ∈ entry.2.fields, f.embedded = true → ∃ name decl, f.type.targetName? = some name ∧
        types.lookup name = some decl ∧ decl.underlying = none := by
  obtain ⟨owner, decl⟩ := entry
  have hparts : ((∀ type ∈ decl.mentioned, ∀ name ∈ type.names,
        name ∈ builtinScalars ∨ name ∈ types.map Prod.fst) ∧
      ∀ f ∈ decl.fields, f.embedded = true → ∃ name target, f.type.targetName? = some name ∧
        types.lookup name = some target ∧ target.underlying = none) ↔
      checkEach (checkKnown types owner) decl.underlying.toList = .ok () ∧
        checkEach (checkField types owner) decl.fields = .ok () ∧
          checkEach (checkMethod types owner) decl.methods = .ok () := by
    simp only [checkEach_ok_iff, checkKnown_ok_iff, checkField_ok_iff, checkMethod_ok_iff,
      TypeDecl.mentioned, List.mem_append, List.mem_map, List.mem_flatMap]
    constructor
    · rintro ⟨hmentioned, hembedded⟩
      refine ⟨fun type htype => hmentioned type (.inl (.inl htype)), fun f hf =>
        ⟨hmentioned f.type (.inl (.inr ⟨f, hf, rfl⟩)), hembedded f hf⟩, fun m hm type htype =>
        hmentioned type (.inr ⟨m, hm, htype⟩)⟩
    · rintro ⟨hunderlying, hfields, hmethods⟩
      refine ⟨?_, fun f hf => (hfields f hf).2⟩
      rintro type ((htype | ⟨f, hf, rfl⟩) | ⟨m, hm, htype⟩)
      · exact hunderlying type htype
      · exact (hfields f hf).1
      · exact hmethods m hm type htype
  rw [hparts]
  simp only [checkReferences]
  cases checkEach (checkKnown types owner) decl.underlying.toList with
  | error e => simp
  | ok _ => cases checkEach (checkField types owner) decl.fields <;> simp

/-! ## Circles -/

theorem checkUnderlying_ok_iff :
    (∀ entry ∈ types, checkUnderlying types entry = .ok ()) ↔ Acyclic (StandsFor types) := by
  constructor
  · intro h a hcircle
    obtain ⟨b, hab, -⟩ := TransGen.head'_iff.mp hcircle
    obtain ⟨entry, hentry, rfl⟩ := List.mem_map.mp hab.declared
    refine not_transGen_self ?_ hcircle
    exact followUnderlying_ok (types.length + 1) [] entry.1 (by simp) (by simp) (by simp)
      (h entry hentry)
  · intro h entry _
    cases hcheck : checkUnderlying types entry with
    | ok _ => rfl
    | error e =>
      exact absurd h (followUnderlying_error (types.length + 1) [] entry.1 (by simp) hcheck)

/-- Where another name has no fields, what a name embeds is embedded by a record. -/
theorem embeds_of_mem_embedded
    (hone : ∀ entry ∈ types,
      entry.2.underlying = none ∨ (entry.2.fields = [] ∧ entry.2.methods = []))
    {a b : String} (hb : b ∈ embedded types a) : Embeds types a b := by
  obtain ⟨decl, f, hlookup, hf, hembedded, htarget⟩ := mem_embedded.mp hb
  refine ⟨decl, f, hlookup, ?_, hf, hembedded, htarget⟩
  rcases hone _ (mem_of_lookup hlookup) with h | ⟨h, -⟩
  · exact h
  · rw [h] at hf
    cases hf

/-- Where embedded fields are declared records, what a name embeds is declared. -/
theorem declared_of_mem_embedded
    (hembeds : ∀ entry ∈ types, ∀ f ∈ entry.2.fields, f.embedded = true →
      ∃ name decl, f.type.targetName? = some name ∧ types.lookup name = some decl ∧
        decl.underlying = none)
    {a b : String} (hb : b ∈ embedded types a) : b ∈ types.map Prod.fst := by
  obtain ⟨decl, f, hlookup, hf, hembedded, htarget⟩ := mem_embedded.mp hb
  obtain ⟨name, target, hname, htargetLookup, -⟩ :=
    hembeds _ (mem_of_lookup hlookup) f hf hembedded
  rw [htarget] at hname
  cases hname
  exact declared_of_lookup htargetLookup

/-- **A file that passes all checks is well formed**, if no record embeds itself, and only then. -/
theorem check_ok_iff (file : CatalogFile) :
    file.check = .ok () ∧ Acyclic (Embeds file.types) ↔ file.WellFormed := by
  have hforms := checkEach_ok_iff checkForm file.types
  have hreferences := checkEach_ok_iff (checkReferences file.types) file.types
  have hunderlying := checkEach_ok_iff (checkUnderlying file.types) file.types
  simp only [checkForm_ok_iff] at hforms
  simp only [checkReferences_ok_iff] at hreferences
  rw [checkUnderlying_ok_iff] at hunderlying
  constructor
  · rintro ⟨h, hembedding⟩
    rw [check] at h
    split at h
    · cases h
    rename_i hform
    have form := hforms.mp hform
    split at h
    · cases h
    rename_i hreference
    have reference := hreferences.mp hreference
    exact ⟨fun entry hentry => (form entry hentry).1, fun entry hentry => (form entry hentry).2.1,
      fun entry hentry => (form entry hentry).2.2, fun entry hentry => (reference entry hentry).1,
      fun entry hentry => (reference entry hentry).2, hunderlying.mp h, hembedding⟩
  · intro w
    refine ⟨?_, w.embedding_acyclic⟩
    rw [check, hforms.mpr fun entry hentry =>
      ⟨w.not_builtin entry hentry, w.one_form entry hentry, w.named entry hentry⟩]
    simp only
    rw [hreferences.mpr fun entry hentry => ⟨w.known entry hentry, w.embeds_struct entry hentry⟩]
    simp only
    exact hunderlying.mpr w.underlying_acyclic

end CatalogFile

end Fieldwise
