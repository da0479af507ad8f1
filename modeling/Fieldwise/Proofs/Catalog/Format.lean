import Fieldwise.Catalog.Basic
import Fieldwise.Catalog.Format
import Fieldwise.Proofs.Catalog.Acceptance
import Fieldwise.Proofs.Catalog.Entries
import Fieldwise.Proofs.TypeExpr.Rendering

/-!
# Catalog files that are written and read again

* `Keyed.ofList_eq_self` : entries that are in order are kept as they are.
* `Document.Yields` : what all that a reader gives has in common, for each way of reading a member.
* `CatalogFile.Expressible` : the names are in order and every type is spelled by some text.
* `ofDocument?_toDocument` for each kind of declaration: what is left out is put back, and nothing
  else is.
* `CatalogFile.ofDocument?_toDocument_iff` : so exactly these files are read back from what they are
  written as, and whatever is read from a document is one of them.
-/

set_option autoImplicit false

namespace Fieldwise

/-! ## Entries in order -/

namespace Keyed

variable {α : Type} {key : String} {value : α} {entries kept : List (String × α)}

theorem put_eq_concat (h : ∀ entry ∈ entries, entry.1 < key) :
    put key value entries = entries ++ [(key, value)] := by
  induction entries with
  | nil => rfl
  | cons entry rest ih =>
    obtain ⟨k, v⟩ := entry
    obtain ⟨hfirst, hrest⟩ := List.forall_mem_cons.mp h
    have hk : k < key := hfirst
    have hne : key ≠ k := fun heq => String.lt_irrefl k (heq ▸ hk)
    have hnot : ¬ key < k := fun hlt => String.lt_irrefl k (String.lt_trans hk hlt)
    rw [put, update, if_neg hne, if_neg hnot]
    exact congrArg ((k, v) :: ·) (ih hrest)

theorem foldl_put_eq_append (h : Ordered (kept ++ entries)) :
    entries.foldl (fun kept entry => put entry.1 entry.2 kept) kept = kept ++ entries := by
  induction entries generalizing kept with
  | nil => rw [List.foldl_nil, List.append_nil]
  | cons entry rest ih =>
    have hlast : ∀ e ∈ kept, e.1 < entry.1 :=
      fun e he => (List.pairwise_append.mp h).2.2 e he entry List.mem_cons_self
    rw [List.append_cons] at h
    rw [List.foldl_cons, put_eq_concat hlast, ih h, ← List.append_cons]

/-- **Entries that are in order are kept as they are.** -/
theorem ofList_eq_self (h : Ordered entries) : ofList entries = entries :=
  foldl_put_eq_append h

theorem ordered_ofList (entries : List (String × α)) : Ordered (ofList entries) :=
  ordered_putAll Prod.snd entries [] .nil

theorem mem_of_mem_foldl_put {entry : String × α} (h : entry ∈
    entries.foldl (fun kept entry => put entry.1 entry.2 kept) kept) :
    entry ∈ kept ∨ entry ∈ entries := by
  induction entries generalizing kept with
  | nil => exact .inl h
  | cons first rest ih =>
    rcases ih h with h | h
    · rcases mem_of_mem_update kept h with h | rfl | ⟨_, _, rfl⟩
      · exact .inl h
      · exact .inr List.mem_cons_self
      · exact .inr List.mem_cons_self
    · exact .inr (List.mem_cons_of_mem _ h)

theorem mem_of_mem_ofList {entry : String × α} (h : entry ∈ ofList entries) : entry ∈ entries :=
  (mem_of_mem_foldl_put h).resolve_left List.not_mem_nil

end Keyed

/-! ## Reading members -/

section Lists

variable {α β : Type} {f : β → Option α} {g : α → β} {xs : List α} {ys : List β}

theorem mapM_map_eq_some (h : ∀ x ∈ xs, f (g x) = some x) : (xs.map g).mapM f = some xs := by
  induction xs with
  | nil => rfl
  | cons x xs ih =>
    obtain ⟨hx, hxs⟩ := List.forall_mem_cons.mp h
    rw [List.map_cons, List.mapM_cons, hx, ih hxs]
    rfl

theorem exists_of_mem_mapM (h : ys.mapM f = some xs) : ∀ x ∈ xs, ∃ y, f y = some x := by
  induction ys generalizing xs with
  | nil =>
    cases h
    exact nofun
  | cons y ys ih =>
    simp only [List.mapM_cons, Option.bind_eq_bind, Option.bind_eq_some_iff, Option.pure_def,
      Option.some.injEq] at h
    obtain ⟨x, hx, rest, hrest, rfl⟩ := h
    exact List.forall_mem_cons.mpr ⟨⟨y, hx⟩, ih hrest⟩

end Lists

namespace Document

variable {α : Type} {read : Document → Option α} {write : α → Document} {P : α → Prop}
  {members : List (String × Document)} {name : String} {default x : α} {xs : List α}

theorem listOf_map (h : ∀ x ∈ xs, read (write x) = some x) :
    listOf read (.sequence (xs.map write)) = some xs :=
  mapM_map_eq_some h

/-- Whatever is read has the property. -/
def Yields (read : Document → Option α) (P : α → Prop) : Prop :=
  ∀ d x, read d = some x → P x

theorem Yields.listOf (h : Yields read P) : Yields (listOf read) fun xs => ∀ x ∈ xs, P x := by
  intro d xs hxs
  unfold Document.listOf at hxs
  split at hxs
  · intro x hx
    obtain ⟨item, hitem⟩ := exists_of_mem_mapM hxs x hx
    exact h item x hitem
  · cases hxs

theorem Yields.optional (h : Yields read P) : Yields (optional read) fun x => ∀ y ∈ x, P y := by
  intro d x hx
  unfold Document.optional at hx
  split at hx
  · cases hx
    exact nofun
  · obtain ⟨y, hy, rfl⟩ := Option.map_eq_some_iff.mp hx
    intro z hz
    exact Option.some.inj hz ▸ h _ _ hy

theorem Yields.memberD (h : Yields read P) (hdefault : P default)
    (hx : memberD members name read default = some x) : P x := by
  unfold Document.memberD at hx
  split at hx
  · cases hx
    exact hdefault
  · exact h _ _ hx

theorem Yields.member? (h : Yields read P) (hx : member? members name read = some x) : P x := by
  obtain ⟨d, -, hd⟩ := Option.bind_eq_some_iff.mp hx
  exact h d x hd

end Document

open Document

/-! ## Declarations -/

variable {format : DataFormat}

namespace TypeExpr

theorem ofDocument?_toDocument {t : TypeExpr} (h : t.Spellable) :
    ofDocument? t.toDocument = some t := by
  rw [ofDocument?, toDocument, text?, Option.bind_some, parse_render h]
  rfl

theorem yields_spellable : Yields TypeExpr.ofDocument? Spellable := by
  intro d t ht
  obtain ⟨s, -, hs⟩ := Option.bind_eq_some_iff.mp ht
  cases hparse : parse s with
  | error e =>
    rw [hparse] at hs
    cases hs
  | ok e =>
    rw [hparse] at hs
    cases hs
    exact spellable_of_parse hparse

end TypeExpr

namespace FieldDecl

theorem ofDocument?_toDocument {f : FieldDecl} (h : f.type.Spellable) :
    ofDocument? format f.toDocument = some f := by
  obtain ⟨name, type, embedded⟩ := f
  have htype : TypeExpr.ofDocument? type.toDocument = some type := TypeExpr.ofDocument?_toDocument h
  by_cases hname : name = ""
  · subst hname
    simp [ofDocument?, toDocument, members?, givenOnce, memberD, member?, List.lookup_cons,
      boolean?, htype]
  · simp [ofDocument?, toDocument, hname, members?, givenOnce, memberD, member?, List.lookup_cons,
      boolean?, text?, htype]

theorem yields_spellable : Yields (ofDocument? format) fun f => f.type.Spellable := by
  intro d f hf
  simp only [ofDocument?, Option.bind_eq_bind, Option.bind_eq_some_iff, Option.pure_def,
    Option.some.injEq] at hf
  obtain ⟨members, -, name, -, type, htype, embedded, -, rfl⟩ := hf
  exact TypeExpr.yields_spellable.member? htype

end FieldDecl

namespace MethodDecl

theorem ofDocument?_toDocument {m : MethodDecl}
    (h : ∀ type ∈ m.params ++ m.results, type.Spellable) :
    ofDocument? format m.toDocument = some m := by
  obtain ⟨name, params, results⟩ := m
  obtain ⟨hparams, hresults⟩ := List.forall_mem_append.mp h
  have hparams := listOf_map fun t ht => TypeExpr.ofDocument?_toDocument (hparams t ht)
  have hresults := listOf_map fun t ht => TypeExpr.ofDocument?_toDocument (hresults t ht)
  simp [ofDocument?, toDocument, members?, givenOnce, memberD, member?, List.lookup_cons, text?,
    hparams, hresults]

theorem yields_spellable :
    Yields (ofDocument? format) fun m => ∀ type ∈ m.params ++ m.results, type.Spellable := by
  intro d m hm
  simp only [ofDocument?, Option.bind_eq_bind, Option.bind_eq_some_iff, Option.pure_def,
    Option.some.injEq] at hm
  obtain ⟨members, -, name, -, params, hparams, results, hresults, rfl⟩ := hm
  exact List.forall_mem_append.mpr
    ⟨TypeExpr.yields_spellable.listOf.memberD (List.forall_mem_nil _) hparams,
      TypeExpr.yields_spellable.listOf.memberD (List.forall_mem_nil _) hresults⟩

end MethodDecl

namespace TypeDecl

theorem forall_mem_mentioned {P : TypeExpr → Prop} {decl : TypeDecl} :
    (∀ type ∈ decl.mentioned, P type) ↔
      (∀ type ∈ decl.underlying, P type) ∧ (∀ f ∈ decl.fields, P f.type) ∧
        ∀ m ∈ decl.methods, ∀ type ∈ m.params ++ m.results, P type := by
  simp only [mentioned, List.forall_mem_append, List.forall_mem_map, List.forall_mem_flatMap,
    Option.mem_toList, Option.mem_def, and_assoc]

theorem optional_toDocument {t : TypeExpr} (h : t.Spellable) :
    optional TypeExpr.ofDocument? t.toDocument = some (some t) := by
  have hread := TypeExpr.ofDocument?_toDocument h
  rw [TypeExpr.toDocument] at hread ⊢
  rw [Document.optional, hread, Option.map_some]
  exact nofun

theorem ofDocument?_toDocument {decl : TypeDecl} (h : ∀ type ∈ decl.mentioned, type.Spellable) :
    ofDocument? format decl.toDocument = some decl := by
  obtain ⟨hunderlying, hfields, hmethods⟩ := forall_mem_mentioned.mp h
  obtain ⟨underlying, fields, methods⟩ := decl
  have hfields : listOf (FieldDecl.ofDocument? format)
      (.sequence (fields.map FieldDecl.toDocument)) = some fields :=
    listOf_map fun f hf => FieldDecl.ofDocument?_toDocument (hfields f hf)
  have hmethods : listOf (MethodDecl.ofDocument? format)
      (.sequence (methods.map MethodDecl.toDocument)) = some methods :=
    listOf_map fun m hm => MethodDecl.ofDocument?_toDocument (hmethods m hm)
  -- one case for each choice of the members that are left out
  by_cases hnofields : fields = []
  all_goals by_cases hnomethods : methods = []
  all_goals
    cases underlying with
    | none => simp [ofDocument?, toDocument, members?, givenOnce, memberD, List.lookup_cons, *]
    | some type =>
      have htype := optional_toDocument (hunderlying type rfl)
      simp [ofDocument?, toDocument, members?, givenOnce, memberD, List.lookup_cons, *]

theorem yields_spellable :
    Yields (ofDocument? format) fun decl => ∀ type ∈ decl.mentioned, type.Spellable := by
  intro d decl hdecl
  simp only [ofDocument?, Option.bind_eq_bind, Option.bind_eq_some_iff, Option.pure_def,
    Option.some.injEq] at hdecl
  obtain ⟨members, -, underlying, hunderlying, fields, hfields, methods, hmethods, rfl⟩ := hdecl
  have hnone : ∀ type ∈ (none : Option TypeExpr), type.Spellable := by
    intro type htype
    cases htype
  exact forall_mem_mentioned.mpr ⟨TypeExpr.yields_spellable.optional.memberD hnone hunderlying,
    FieldDecl.yields_spellable.listOf.memberD (List.forall_mem_nil _) hfields,
    MethodDecl.yields_spellable.listOf.memberD (List.forall_mem_nil _) hmethods⟩

end TypeDecl

namespace CatalogFile

/-- A file that can be written: the declared names are in order, as in a map, and the names and the
lengths in the types are those of the grammar of types. -/
structure Expressible (file : CatalogFile) : Prop where
  ordered : Keyed.Ordered file.types
  spellable : ∀ entry ∈ file.types, ∀ type ∈ entry.2.mentioned, type.Spellable

variable {file : CatalogFile}

theorem Expressible.ofDocument?_toDocument (h : file.Expressible) :
    ofDocument? format file.toDocument = some file := by
  have hwritten : file.toDocument = .table [("types",
      .table (file.types.map fun entry => (entry.1, entry.2.toDocument)))] := rfl
  have hentries : (file.types.map fun entry => (entry.1, entry.2.toDocument)).mapM
      (entryOfDocument? format) = some file.types :=
    mapM_map_eq_some fun entry hentry => by
      rw [entryOfDocument?, TypeDecl.ofDocument?_toDocument (h.spellable entry hentry)]
      rfl
  have htypes : typesOfDocument? format (.table (file.types.map fun entry =>
      (entry.1, entry.2.toDocument))) = some file.types := by
    rw [typesOfDocument?, hentries, Option.map_some, Keyed.ofList_eq_self h.ordered]
  rw [hwritten]
  simp [ofDocument?, members?, givenOnce, memberD, htypes]

/-- **Whatever is read can be written.** -/
theorem yields_expressible : Yields (ofDocument? format) Expressible := by
  intro d file hfile
  simp only [ofDocument?, Option.bind_eq_bind, Option.bind_eq_some_iff, Option.pure_def,
    Option.some.injEq] at hfile
  obtain ⟨members, -, types, htypes, rfl⟩ := hfile
  have hread : Yields (typesOfDocument? format) fun types => Expressible ⟨types⟩ := by
    intro d types htypes
    unfold typesOfDocument? at htypes
    split at htypes
    · obtain ⟨entries, hentries, rfl⟩ := Option.map_eq_some_iff.mp htypes
      refine ⟨Keyed.ordered_ofList entries, fun entry hentry => ?_⟩
      obtain ⟨written, hwritten⟩ :=
        exists_of_mem_mapM hentries entry (Keyed.mem_of_mem_ofList hentry)
      obtain ⟨decl, hdecl, rfl⟩ := Option.map_eq_some_iff.mp hwritten
      exact TypeDecl.yields_spellable _ _ hdecl
    · cases htypes
  exact hread.memberD ⟨.nil, List.forall_mem_nil _⟩ htypes

/-- **Catalog files survive being written.** What is left out of a declaration is what reading puts
back, and every type is read back from its text: a file is the same after it was written and read
again if, and only if, it can be written. So the catalog of it is the same, or its first fault.
Every file that was read from a document can be written, in either notation. -/
theorem ofDocument?_toDocument_iff (file : CatalogFile) (format : DataFormat) :
    (ofDocument? format file.toDocument = some file ↔ file.Expressible) ∧
      (file.Expressible → (ofDocument? format file.toDocument).map Catalog.ofFile =
        some (Catalog.ofFile file)) ∧
      ∀ d, ofDocument? format d = some file →
        ∀ other : DataFormat, ofDocument? other file.toDocument = some file := by
  refine ⟨⟨yields_expressible _ _, fun h => h.ofDocument?_toDocument⟩, fun h => ?_,
    fun d hd other => ?_⟩
  · rw [h.ofDocument?_toDocument, Option.map_some]
  · exact (yields_expressible d file hd).ofDocument?_toDocument

/-- A record with an embedded field, which has no name, and with a method, and another name for a
type. -/
theorem ofDocument?_toDocument_iff_page :
    let base : TypeDecl := ⟨none, [⟨"ID", .named "int", false⟩], []⟩
    let page : TypeDecl := ⟨none, [⟨"", .pointer (.named "Base"), true⟩,
      ⟨"Parts", .map (.named "string") (.array 4 (.slice (.named "Tag"))), false⟩],
      [⟨"Title", [], [.named "string"]⟩]⟩
    let file : CatalogFile :=
      ⟨[("Base", base), ("Page", page), ("Tag", ⟨some (.named "string"), [], []⟩)]⟩
    file.Expressible ∧ ofDocument? .json file.toDocument = some file ∧
      (ofDocument? .json file.toDocument).map Catalog.ofFile = some (Catalog.ofFile file) ∧
      ofDocument? .toml file.toDocument = some file := by
  intro base page file
  have hfile : file.Expressible := by
    refine ⟨?_, by decide +kernel⟩
    unfold Keyed.Ordered
    decide +kernel
  obtain ⟨hiff, hcatalog, hother⟩ := ofDocument?_toDocument_iff file .json
  exact ⟨hfile, hiff.mpr hfile, hcatalog hfile, hother _ (hiff.mpr hfile) .toml⟩

end CatalogFile

end Fieldwise
