import Fieldwise.Proofs.Catalog.Builder

/-!
# Accepted files and the field sets of their records

* `Catalog.ofFile_ok_iff` : a catalog file is accepted exactly when it is well formed.
* `Catalog.of_ofFile`, `Catalog.ofFile_of_wellFormed` : the catalog is then the one of its
  declarations, each record with the field set that can be gathered level by level.
* `DepthFields.Memo.Reachable` : what may be remembered once members were built, of whatever
  records and in whatever order.
* `Catalog.exists_fieldSet?_nearest` : in an accepted catalog a record has under each name the
  nearest candidate, whatever was built before it.

Building the entries finds the circles of embedded records, so what it yields says that there are
none (`Built`). Only then are field sets known to be those gathered level by level.
-/

set_option autoImplicit false

namespace Fieldwise

open Relation

namespace CatalogFile

/-- A file may list its declarations in any order. -/
theorem WellFormed.perm {file : CatalogFile} {types : List (String × TypeDecl)}
    (w : file.WellFormed) (hperm : types.Perm file.types)
    (hnames : (file.types.map Prod.fst).Nodup) : (CatalogFile.mk types).WellFormed := by
  have hlookup := Keyed.lookup_perm hperm hnames
  have hstandsFor : StandsFor types = StandsFor file.types := by
    simp only [funext_iff, StandsFor, hlookup, implies_true]
  have hembeds : Embeds types = Embeds file.types := by
    simp only [funext_iff, Embeds, hlookup, implies_true]
  refine ⟨?not_builtin, ?one_form, ?named, ?known, ?embeds_struct, ?underlying_acyclic,
    ?embedding_acyclic⟩
  case not_builtin => exact fun entry hentry => w.not_builtin entry (hperm.mem_iff.mp hentry)
  case one_form => exact fun entry hentry => w.one_form entry (hperm.mem_iff.mp hentry)
  case named => exact fun entry hentry => w.named entry (hperm.mem_iff.mp hentry)
  case known =>
    intro entry hentry type htype name hname
    rw [(hperm.map Prod.fst).mem_iff]
    exact w.known entry (hperm.mem_iff.mp hentry) type htype name hname
  case embeds_struct =>
    simp only [hlookup]
    exact fun entry hentry => w.embeds_struct entry (hperm.mem_iff.mp hentry)
  case underlying_acyclic => exact hstandsFor ▸ w.underlying_acyclic
  case embedding_acyclic => exact hembeds ▸ w.embedding_acyclic

/-- What a name embeds in a well-formed file is a declared record. -/
theorem WellFormed.embeds_declared {file : CatalogFile} (w : file.WellFormed) (a : String) :
    ∀ b ∈ embedded file.types a, Embeds file.types a b ∧ b ∈ file.types.map Prod.fst :=
  fun _ hb => ⟨embeds_of_mem_embedded w.one_form hb, declared_of_mem_embedded w.embeds_struct hb⟩

end CatalogFile

namespace DepthFields

open CatalogFile

/-- What may be remembered once the members of some records were built, one after another. -/
inductive Memo.Reachable (types : List (String × TypeDecl)) : Memo → Prop
  | nil : Reachable types []
  | step {done done' : Memo} {name : String} {fields : DepthFields} (h : Reachable types done)
    (hbuild : build types [] done name = .ok (fields, done')) : Reachable types done'

theorem Memo.sound_nil (types : List (String × TypeDecl)) : Memo.Sound types [] :=
  fun _ _ h => by cases h

theorem Memo.Reachable.sound {types : List (String × TypeDecl)} {done : Memo}
    (h : Reachable types done) : Memo.Sound types done := by
  induction h with
  | nil => exact sound_nil types
  | step _ hbuild ih => exact (build_ok ih hbuild).2

/-- **Whatever is remembered**, in a well-formed file the members of a record can be built and are
those gathered level by level. -/
theorem exists_build {file : CatalogFile} (w : file.WellFormed) {record : String}
    (hrecord : record ∈ file.types.map Prod.fst) {done : Memo}
    (hdone : Memo.Sound file.types done) :
    ∃ fields done', build file.types [] done record = .ok (fields, done') ∧
      fields.toFieldSet = FieldSet.ofStruct file.types record := by
  cases hbuild : build file.types [] done record with
  | error e =>
    have hcircle := build_error w.embeds_declared (List.isChain_singleton record) hrecord hbuild
    exact absurd w.embedding_acyclic hcircle
  | ok result =>
    obtain ⟨fields, done'⟩ := result
    exact ⟨fields, done', rfl, (build_ok hdone hbuild).1.toFieldSet_eq w hrecord⟩

end DepthFields

namespace Catalog

open CatalogFile DepthFields

variable {types : List (String × TypeDecl)}

/-! ## Entries -/

/-- The entry that a declaration gets: another name as it stands, or a record with its complete
members. -/
inductive Built (types : List (String × TypeDecl)) :
    String × TypeDecl → String × CatalogEntry → Prop
  | named {name : String} {decl : TypeDecl} {underlying : TypeExpr}
    (h : decl.underlying = some underlying) : Built types (name, decl) (name, .alias underlying)
  | record {name : String} {decl : TypeDecl} {fields : DepthFields} (h : decl.underlying = none)
    (hfields : Complete types name fields) :
    Built types (name, decl) (name, .struct fields.toFieldSet)

theorem buildEntries_ok : ∀ (decls : List (String × TypeDecl)) (done : Memo)
    (entries : List (String × CatalogEntry)), Memo.Sound types done →
    buildEntries types done decls = .ok entries → List.Forall₂ (Built types) decls entries
  | [], done, entries, _, h => by
    cases h
    exact .nil
  | (name, decl) :: rest, done, entries, hdone, h => by
    rw [buildEntries] at h
    split at h
    · rename_i underlying hunderlying
      obtain ⟨others, hothers, rfl⟩ := map_eq_ok_iff.mp h
      exact .cons (.named hunderlying) (buildEntries_ok rest done others hdone hothers)
    · rename_i hrecord
      split at h
      · cases h
      rename_i fields done₁ hbuild
      obtain ⟨hcomplete, hdone₁⟩ := build_ok hdone hbuild
      obtain ⟨others, hothers, rfl⟩ := map_eq_ok_iff.mp h
      exact .cons (.record hrecord hcomplete) (buildEntries_ok rest done₁ others hdone₁ hothers)

/-- Building entries fails only on a circle, where embedded records are declared. -/
theorem buildEntries_error {e : CatalogFault}
    (hembeds : ∀ a, ∀ b ∈ embedded types a, Embeds types a b ∧ b ∈ types.map Prod.fst) :
    ∀ (decls : List (String × TypeDecl)) (done : Memo), decls ⊆ types →
      buildEntries types done decls = .error e → ¬ Acyclic (Embeds types)
  | [], _, _, h => by cases h
  | (name, decl) :: rest, done, hsubset, h => by
    obtain ⟨hdecl, hrest⟩ := List.cons_subset.mp hsubset
    rw [buildEntries] at h
    split at h
    · exact buildEntries_error hembeds rest done hrest (map_eq_error_iff.mp h)
    · split at h
      · rename_i hbuild
        exact build_error hembeds (List.isChain_singleton name) (List.mem_map_of_mem hdecl) hbuild
      · exact buildEntries_error hembeds rest _ hrest (map_eq_error_iff.mp h)

/-- No circle is to be met below a record that has an entry. -/
theorem acc_of_built {decls : List (String × TypeDecl)} {entries : List (String × CatalogEntry)}
    (h : List.Forall₂ (Built types) decls entries) {name : String} {decl : TypeDecl}
    (hdecl : (name, decl) ∈ decls) (hrecord : decl.underlying = none) :
    Acc (flip (Embeds types)) name := by
  induction h with
  | nil => cases hdecl
  | cons hbuilt _ ih =>
    rcases List.mem_cons.mp hdecl with rfl | hdecl
    · cases hbuilt with
      | named hunderlying => cases hrecord.symm.trans hunderlying
      | record _ hcomplete => exact hcomplete.ends
    · exact ih hdecl

/-- Where every record has an entry, none embeds itself. -/
theorem acyclic_of_built {entries : List (String × CatalogEntry)}
    (h : List.Forall₂ (Built types) types entries) : Acyclic (Embeds types) := by
  intro a hcircle
  obtain ⟨b, ⟨decl, f, hlookup, hrecord, -⟩, -⟩ := TransGen.head'_iff.mp hcircle
  exact not_transGen_self (acc_of_built h (mem_of_lookup hlookup) hrecord) hcircle

/-- The entries of a well-formed file are those of its declarations. -/
theorem eq_map_of_built {file : CatalogFile} (w : file.WellFormed)
    {decls : List (String × TypeDecl)} {entries : List (String × CatalogEntry)}
    (hsubset : decls ⊆ file.types) (h : List.Forall₂ (Built file.types) decls entries) :
    entries = decls.map fun entry => (entry.1, declaredEntry file.types entry) := by
  induction h with
  | nil => rfl
  | cons hbuilt _ ih =>
    obtain ⟨hdecl, hrest⟩ := List.cons_subset.mp hsubset
    rw [List.map_cons, ← ih hrest]
    congr 1
    cases hbuilt with
    | named hunderlying => simp [declaredEntry, hunderlying]
    | record hrecord hcomplete =>
      simp [declaredEntry, hrecord, hcomplete.toFieldSet_eq w (List.mem_map_of_mem hdecl)]

/-! ## Acceptance -/

/-- The catalog of an accepted file holds its declarations, and the file is well formed. -/
theorem of_ofFile {file : CatalogFile} {c : Catalog} (h : Catalog.ofFile file = .ok c) :
    file.WellFormed ∧ c = ofTypes file.types := by
  rw [ofFile] at h
  split at h
  · cases h
  rename_i hcheck
  obtain ⟨entries, hentries, rfl⟩ := map_eq_ok_iff.mp h
  have hbuilt := buildEntries_ok file.types [] entries (Memo.sound_nil _) hentries
  have w := (check_ok_iff file).mp ⟨hcheck, acyclic_of_built hbuilt⟩
  refine ⟨w, ?_⟩
  rw [eq_map_of_built w (List.Subset.refl _) hbuilt, extend_declaredEntry]

/-- A well-formed file is accepted. -/
theorem ofFile_of_wellFormed {file : CatalogFile} (w : file.WellFormed) :
    Catalog.ofFile file = .ok (ofTypes file.types) := by
  obtain ⟨hcheck, hacyclic⟩ := (check_ok_iff file).mpr w
  cases hfile : Catalog.ofFile file with
  | ok c => rw [(of_ofFile hfile).2]
  | error e =>
    rw [ofFile, hcheck] at hfile
    exact absurd hacyclic (buildEntries_error w.embeds_declared file.types [] (List.Subset.refl _)
      (map_eq_error_iff.mp hfile))

/-- **A catalog file is accepted exactly when it is well formed.** -/
theorem ofFile_ok_iff (file : CatalogFile) :
    (∃ c, Catalog.ofFile file = .ok c) ↔ file.WellFormed :=
  ⟨fun ⟨_, h⟩ => (of_ofFile h).1, fun w => ⟨_, ofFile_of_wellFormed w⟩⟩

/-- A file that is known to be accepted has the catalog of its declarations. -/
theorem ofFile_of_isOk {file : CatalogFile} (h : (Catalog.ofFile file).isOk = true) :
    Catalog.ofFile file = .ok (ofTypes file.types) := by
  cases hfile : Catalog.ofFile file with
  | error e =>
    rw [hfile] at h
    cases h
  | ok c => rw [(of_ofFile hfile).2]

/-- Two records that embed a third and are embedded side by side are no circle. -/
example :
    let embed (name : String) : FieldDecl := ⟨"", .named name, true⟩
    (Catalog.ofFile ⟨[("A", ⟨none, [embed "B", embed "C"], []⟩), ("B", ⟨none, [embed "D"], []⟩),
      ("C", ⟨none, [embed "D"], []⟩), ("D", ⟨none, [], []⟩)]⟩).isOk = true := by
  decide +kernel

/-! ## The nearest candidate -/

/-- **Under each name a record has the nearest candidate.** Every declared record of an accepted
catalog has a field set. It has no member of a name that no candidate has, and otherwise the one of
the candidate that is nearer than all others. It is built whatever members were built and remembered
before, of whatever records, and whatever the order in which the declarations are taken. -/
theorem exists_fieldSet?_nearest {file : CatalogFile} {c : Catalog} {record : String}
    {decl : TypeDecl} (hfile : Catalog.ofFile file = .ok c)
    (hnames : (file.types.map Prod.fst).Nodup) (hdecl : (record, decl) ∈ file.types)
    (hrecord : decl.underlying = none) :
    ∃ fields, c.fieldSet? record = some fields ∧
      (∀ key, fields.get? key = none ↔ IsEmpty (Candidate file.types record key)) ∧
      (∀ key type, fields.get? key = some type ↔
        ∃ nearest : Candidate file.types record key, nearest.type = type ∧
          ∀ other : Candidate file.types record key, nearest.Nearer other) ∧
      (∀ done, Memo.Reachable file.types done →
        ∃ deep done', DepthFields.build file.types [] done record = .ok (deep, done') ∧
          deep.toFieldSet = fields) ∧
      ∀ types, types.Perm file.types →
        ∃ c', Catalog.ofFile ⟨types⟩ = .ok c' ∧ c'.fieldSet? record = some fields := by
  obtain ⟨w, rfl⟩ := of_ofFile hfile
  have hdeclared : record ∈ file.types.map Prod.fst := List.mem_map_of_mem hdecl
  refine ⟨FieldSet.ofStruct file.types record, fieldSet?_ofTypes hnames hdecl hrecord,
    fun _ => FieldSet.get?_ofStruct_eq_none_iff w hdeclared,
    fun _ _ => FieldSet.get?_ofStruct_eq_some_iff w hdeclared,
    fun _ hdone => exists_build w hdeclared hdone.sound, fun types hperm => ?_⟩
  have hnames' : (types.map Prod.fst).Nodup := (hperm.map Prod.fst).nodup_iff.mpr hnames
  refine ⟨ofTypes types, ofFile_of_wellFormed (w.perm hperm hnames), ?_⟩
  rw [fieldSet?_ofTypes hnames' (hperm.mem_iff.mpr hdecl) hrecord,
    FieldSet.ofStruct_congr (Keyed.lookup_perm hperm hnames) hperm.length_eq]

/-- A page embeds two records that embed a third. The method of the second lies less deep than the
field of the third, and neither way to the third matters. Nor does it matter that the members of the
first of them are remembered already. -/
theorem exists_fieldSet?_nearest_diamond :
    let embed (name : String) : FieldDecl := ⟨"", .pointer (.named name), true⟩
    let left : TypeDecl := ⟨none, [embed "Base"], []⟩
    let page : TypeDecl := ⟨none, [embed "Left", embed "Right"], []⟩
    let file : CatalogFile :=
      ⟨[("Base", ⟨none, [⟨"ID", .named "string", false⟩], []⟩), ("Left", left), ("Page", page),
        ("Right", ⟨none, [embed "Base"], [⟨"Id", [], [.named "int64"]⟩]⟩)]⟩
    ∃ c fields, Catalog.ofFile file = .ok c ∧ (file.types.map Prod.fst).Nodup ∧
      ("Page", page) ∈ file.types ∧ page.underlying = none ∧
      c.fieldSet? "Page" = some fields ∧ fields.get? "id" = some (.named "int64") ∧
      (∃ nearest : Candidate file.types "Page" "id", nearest.type = .named "int64" ∧
        ∀ other : Candidate file.types "Page" "id", nearest.Nearer other) ∧
      ∃ first done deep done', DepthFields.build file.types [] [] "Left" = .ok (first, done) ∧
        DepthFields.build file.types [] done "Page" = .ok (deep, done') ∧
          deep.toFieldSet = fields := by
  intro embed left page file
  have hfile : Catalog.ofFile file = .ok (ofTypes file.types) := ofFile_of_isOk (by decide +kernel)
  have hnames : (file.types.map Prod.fst).Nodup := by decide
  have hleft : ("Left", left) ∈ file.types := by decide
  have hpage : ("Page", page) ∈ file.types := by decide
  obtain ⟨_, -, -, -, hbuildLeft, -⟩ := exists_fieldSet?_nearest hfile hnames hleft rfl
  obtain ⟨first, done, hfirst, -⟩ := hbuildLeft [] .nil
  obtain ⟨fields, hfields, -, hsome, hbuild, -⟩ := exists_fieldSet?_nearest hfile hnames hpage rfl
  obtain ⟨deep, done', hdeep, hsame⟩ := hbuild done (.step .nil hfirst)
  have hget : fields.get? "id" = some (.named "int64") := by
    rw [fieldSet?_ofTypes hnames hpage rfl] at hfields
    rw [← Option.some.inj hfields]
    decide
  exact ⟨_, fields, hfile, hnames, hpage, rfl, hfields, hget, (hsome _ _).mp hget, first, done,
    deep, done', hfirst, hdeep, hsame⟩

end Catalog

end Fieldwise
