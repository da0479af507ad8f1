import Fieldwise.Proofs.CallTree.Paths
import Fieldwise.Proofs.Catalog.Accepted
import Fieldwise.Proofs.Text.Lowercase
import Fieldwise.Proofs.Validation.Branches
import Fieldwise.Proofs.Validation.Union

/-!
# Which trees fit some type

* `Catalog.isConsistent_of_mismatches` : a tree that fits a type is consistent, whatever the
  catalog.
* `CallTree.draft` : the other way round, the declarations that a consistent tree suggests: a list
  where it is iterated, a record where it is drilled into, and a text at its leaves.
* `Draft.Sound` : the records of a draft have names of their own and mention nothing unknown, so
  that `Draft.Sound.wellFormed` the drafted file is accepted.
* `Catalog.mismatches_draft` : the tree fits the type that is drafted for it.
* `Catalog.fits_iff_consistent` : both together.

The names of the records are numbers in disguise. A draft is given the first number that is free
and hands on the next one, which keeps the records of different fields apart.
-/

set_option autoImplicit false

namespace Fieldwise

open Relation

/-! ## Conflicts -/

/-- **A tree that fits a type is consistent.** No shape of a type lets a place be iterated and
drilled into, and the walk comes to every node below a place that it finds nothing at. -/
theorem Catalog.isConsistent_of_mismatches (c : Catalog) (suggest : Suggester) (t : CallTree) :
    ∀ (path : List Step) (type : TypeExpr), c.mismatches suggest path type t = [] →
      t.isConsistent = true := by
  induction t with
  | step t ihElement ihMembers =>
    intro path type h
    rw [mismatches_eq_nil_iff] at h
    rw [CallTree.isConsistent_iff]
    cases hshape : c.settle type with
    | unknown name =>
      rw [hshape] at h
      cases h
    | scalar =>
      rw [hshape] at h
      obtain ⟨helement, hmembers⟩ := CallTree.isLeaf_iff.mp h
      simp [helement, hmembers]
    | slice inner =>
      rw [hshape] at h
      obtain ⟨hmembers, helement⟩ := h
      exact ⟨.inr hmembers, fun e he => ihElement e he _ _ (helement e he), by simp [hmembers]⟩
    | map key value =>
      rw [hshape] at h
      obtain ⟨hmembers, helement⟩ := h
      exact ⟨.inr hmembers, fun e he => ihElement e he _ _ (helement e he).2, by simp [hmembers]⟩
    | struct known =>
      rw [hshape] at h
      obtain ⟨helement, hmembers⟩ := h
      refine ⟨.inl helement, by simp [helement], fun entry hentry => ?_⟩
      have hfield := hmembers entry hentry
      rw [entryMismatches] at hfield
      split at hfield
      · exact ihMembers entry hentry _ _ hfield
      · cases hfield

/-! ## Keys -/

/-- Templates reach a member of this name, and know it by the key. -/
structure IsNameFor (key name : String) : Prop where
  ne_empty : name ≠ ""
  exported : isExported name = true
  lowercase : Text.lowercase name = key

/-- A key is in lower case. -/
theorem IsNameFor.lowercase_key {key name : String} (h : IsNameFor key name) :
    Text.lowercase key = key := by
  rw [← h.lowercase, Text.lowercase_lowercase]

namespace CallTree

mutual

/-- The keys of all fields, at any depth. -/
def keys : CallTree → List String
  | node element fields => elementKeys element ++ fieldsKeys fields
termination_by structural t => t

/-- The keys below the elements. -/
def elementKeys : Option CallTree → List String
  | none => []
  | some t => t.keys
termination_by structural t => t

/-- The keys of the fields and below them. -/
def fieldsKeys : Option (List (String × CallTree)) → List String
  | none => []
  | some fs => entriesKeys fs
termination_by structural fs => fs

/-- The keys of several fields and below them. -/
def entriesKeys : List (String × CallTree) → List String
  | [] => []
  | entry :: rest => entryKeys entry ++ entriesKeys rest
termination_by structural fs => fs

/-- The key of a field and those below it. -/
def entryKeys : String × CallTree → List String
  | (key, t) => key :: t.keys
termination_by structural entry => entry

end

theorem mem_keys_of_element {t e : CallTree} {key : String} (he : t.element = some e)
    (h : key ∈ e.keys) : key ∈ t.keys := by
  obtain ⟨element, fields⟩ := t
  cases he
  exact List.mem_append_left _ h

theorem mem_entriesKeys {entry : String × CallTree} {key : String}
    (h : key = entry.1 ∨ key ∈ entry.2.keys) :
    ∀ {entries : List (String × CallTree)}, entry ∈ entries → key ∈ entriesKeys entries
  | (first, t) :: rest, hentry => by
    rw [entriesKeys, entryKeys]
    rcases List.mem_cons.mp hentry with rfl | hentry
    · exact List.mem_append_left _ (List.mem_cons.mpr h)
    · exact List.mem_append_right _ (mem_entriesKeys h hentry)

theorem mem_keys_of_member {t : CallTree} {entry : String × CallTree} {key : String}
    (hentry : entry ∈ t.members) (h : key = entry.1 ∨ key ∈ entry.2.keys) : key ∈ t.keys := by
  obtain ⟨element, _ | fields⟩ := t
  · cases hentry
  · exact List.mem_append_right _ (mem_entriesKeys h hentry)

end CallTree

/-! ## Drafts -/

/-- Something drafted together with the declarations that it needs, whose names have numbers below
`next`. -/
structure Draft (α : Type) where
  value : α
  decls : List (String × TypeDecl)
  next : Nat

/-- The name of the record with the given number. -/
def recordName (n : Nat) : String :=
  String.ofList (List.replicate (n + 1) 'T')

namespace CallTree

mutual

/-- A type that the tree fits, with records for all places that it drills into. The member under a
key gets the name that the key is `called`. -/
def draft (called : String → String) (n : Nat) : CallTree → Draft TypeExpr
  | node (some e) _ =>
    let inner := e.draft called n
    { inner with value := .slice inner.value }
  | node none none => ⟨.named "string", [], n⟩
  | node none (some fs) =>
    let fields := draftFields called (n + 1) fs
    ⟨.named (recordName n), (recordName n, ⟨none, fields.value, []⟩) :: fields.decls, fields.next⟩
termination_by structural t => t

/-- The fields of a record. -/
def draftFields (called : String → String) (n : Nat) :
    List (String × CallTree) → Draft (List FieldDecl)
  | [] => ⟨[], [], n⟩
  | entry :: rest =>
    let first := draftEntry called n entry
    let others := draftFields called first.next rest
    ⟨first.value :: others.value, first.decls ++ others.decls, others.next⟩
termination_by structural entries => entries

/-- A field of a record. -/
def draftEntry (called : String → String) (n : Nat) : String × CallTree → Draft FieldDecl
  | (key, t) =>
    let type := t.draft called n
    { type with value := ⟨called key, type.value, false⟩ }
termination_by structural entry => entry

end

end CallTree

/-! ### Names of records -/

theorem recordName_lt {m n : Nat} (h : m < n) : recordName m < recordName n := by
  obtain ⟨k, rfl⟩ := Nat.exists_eq_add_of_lt h
  have hlonger : List.replicate (m + k + 1 + 1) 'T' =
      List.replicate (m + 1) 'T' ++ List.replicate (k + 1) 'T' := by
    rw [List.replicate_append_replicate]
    congr 1
    omega
  have hlt : List.replicate (m + 1) 'T' ++ [] <
      List.replicate (m + 1) 'T' ++ List.replicate (k + 1) 'T' := List.append_left_lt .nil
  rw [List.append_nil, ← hlonger] at hlt
  show (recordName m).toList < (recordName (m + k + 1)).toList
  rwa [recordName, recordName, String.toList_ofList, String.toList_ofList]

theorem recordName_not_builtin (n : Nat) : recordName n ∉ builtinScalars := by
  have hsmall : ∀ name ∈ builtinScalars, name.toList.head? ≠ some 'T' := by decide
  intro h
  refine hsmall _ h ?_
  rw [recordName, String.toList_ofList]
  rfl

/-! ### Sound drafts -/

/-- Every name in the type is built in or declared. -/
def TypeExpr.KnownIn (decls : List (String × TypeDecl)) (type : TypeExpr) : Prop :=
  ∀ name ∈ type.names, name ∈ builtinScalars ∨ name ∈ decls.map Prod.fst

/-- A named field of a known type that embeds nothing. -/
structure FieldDecl.Plain (decls : List (String × TypeDecl)) (f : FieldDecl) : Prop where
  not_embedded : f.embedded = false
  named : f.name ≠ ""
  known : f.type.KnownIn decls

/-- A record of plain fields only. -/
structure TypeDecl.Plain (decls : List (String × TypeDecl)) (decl : TypeDecl) : Prop where
  record : decl.underlying = none
  no_methods : decl.methods = []
  fields : ∀ f ∈ decl.fields, f.Plain decls

section Plain

variable {decls decls' : List (String × TypeDecl)}

theorem TypeExpr.KnownIn.mono (hdecls : decls ⊆ decls') {type : TypeExpr}
    (h : type.KnownIn decls) : type.KnownIn decls' :=
  fun name hname => (h name hname).imp_right fun hmem => List.map_subset _ hdecls hmem

theorem FieldDecl.Plain.mono (hdecls : decls ⊆ decls') {f : FieldDecl} (h : f.Plain decls) :
    f.Plain decls' :=
  ⟨h.not_embedded, h.named, h.known.mono hdecls⟩

theorem TypeDecl.Plain.mono (hdecls : decls ⊆ decls') {decl : TypeDecl} (h : decl.Plain decls) :
    decl.Plain decls' :=
  ⟨h.record, h.no_methods, fun f hf => (h.fields f hf).mono hdecls⟩

end Plain

/-- The declarations of a draft have increasing numbers from `n` on, and are plain. -/
structure Draft.Sound {α : Type} (n : Nat) (d : Draft α) : Prop where
  le : n ≤ d.next
  within : ∀ entry ∈ d.decls, ∃ k, n ≤ k ∧ k < d.next ∧ entry.1 = recordName k
  ordered : Keyed.Ordered d.decls
  plain : ∀ entry ∈ d.decls, entry.2.Plain d.decls

namespace Draft.Sound

variable {α β γ : Type} {n : Nat}

/-- The declarations of one draft followed by those of another that was given the next number. -/
theorem append {d : Draft α} {d' : Draft β} (h : d.Sound n) (h' : d'.Sound d.next) (value : γ) :
    (⟨value, d.decls ++ d'.decls, d'.next⟩ : Draft γ).Sound n where
  le := Nat.le_trans h.le h'.le
  within entry hentry := by
    rcases List.mem_append.mp hentry with hentry | hentry
    · obtain ⟨k, hle, hlt, hk⟩ := h.within entry hentry
      exact ⟨k, hle, Nat.lt_of_lt_of_le hlt h'.le, hk⟩
    · obtain ⟨k, hle, hlt, hk⟩ := h'.within entry hentry
      exact ⟨k, Nat.le_trans h.le hle, hlt, hk⟩
  ordered := by
    refine List.pairwise_append.mpr ⟨h.ordered, h'.ordered, fun a ha b hb => ?_⟩
    obtain ⟨k, -, hlt, hk⟩ := h.within a ha
    obtain ⟨k', hle, -, hk'⟩ := h'.within b hb
    rw [hk, hk']
    exact recordName_lt (Nat.lt_of_lt_of_le hlt hle)
  plain entry hentry := by
    rcases List.mem_append.mp hentry with hentry | hentry
    · exact (h.plain entry hentry).mono (List.subset_append_left _ _)
    · exact (h'.plain entry hentry).mono (List.subset_append_right _ _)

/-- A record before the declarations that its fields need. -/
theorem cons {d : Draft (List FieldDecl)} (h : d.Sound (n + 1))
    (hfields : ∀ f ∈ d.value, f.Plain d.decls) (value : β) :
    (⟨value, (recordName n, ⟨none, d.value, []⟩) :: d.decls, d.next⟩ : Draft β).Sound n where
  le := Nat.le_of_succ_le h.le
  within entry hentry := by
    rcases List.mem_cons.mp hentry with rfl | hentry
    · exact ⟨n, Nat.le_refl n, h.le, rfl⟩
    · obtain ⟨k, hle, hlt, hk⟩ := h.within entry hentry
      exact ⟨k, Nat.le_of_succ_le hle, hlt, hk⟩
  ordered := by
    refine List.pairwise_cons.mpr ⟨fun entry hentry => ?_, h.ordered⟩
    obtain ⟨k, hle, -, hk⟩ := h.within entry hentry
    rw [hk]
    exact recordName_lt hle
  plain entry hentry := by
    have hsub := List.subset_cons_self (recordName n, (⟨none, d.value, []⟩ : TypeDecl)) d.decls
    rcases List.mem_cons.mp hentry with rfl | hentry
    · exact ⟨rfl, rfl, fun f hf => (hfields f hf).mono hsub⟩
    · exact (h.plain entry hentry).mono hsub

end Draft.Sound

namespace CallTree

variable {called : String → String}

/-- The fields of a record are plain and their declarations sound, if this holds of each alone. -/
theorem sound_draftFields {fs : List (String × CallTree)}
    (h : ∀ entry ∈ fs, ∀ n, (entry.2.draft called n).Sound n ∧
      (entry.2.draft called n).value.KnownIn (entry.2.draft called n).decls)
    (hcalled : ∀ entry ∈ fs, called entry.1 ≠ "") (n : Nat) :
    (draftFields called n fs).Sound n ∧
      ∀ f ∈ (draftFields called n fs).value, f.Plain (draftFields called n fs).decls := by
  induction fs generalizing n with
  | nil => exact ⟨⟨Nat.le_refl n, nofun, .nil, nofun⟩, nofun⟩
  | cons entry rest ih =>
    obtain ⟨key, t⟩ := entry
    obtain ⟨hfirst, hrest⟩ := List.forall_mem_cons.mp h
    obtain ⟨hkey, hkeys⟩ := List.forall_mem_cons.mp hcalled
    obtain ⟨hsound, hknown⟩ := hfirst n
    obtain ⟨hsounds, hplain⟩ := ih hrest hkeys (t.draft called n).next
    rw [draftFields, draftEntry]
    refine ⟨hsound.append hsounds _, fun f hf => ?_⟩
    rcases List.mem_cons.mp hf with rfl | hf
    · exact ⟨rfl, hkey, hknown.mono (List.subset_append_left _ _)⟩
    · exact (hplain f hf).mono (List.subset_append_right _ _)

/-- **A draft is sound**, and its type mentions nothing unknown. -/
theorem sound_draft (t : CallTree) (hcalled : ∀ key ∈ t.keys, called key ≠ "") : ∀ n : Nat,
    (t.draft called n).Sound n ∧ (t.draft called n).value.KnownIn (t.draft called n).decls := by
  induction t with
  | step t ihElement ihMembers =>
    intro n
    obtain ⟨_ | e, fields⟩ := t
    · rcases fields with _ | fs
      · exact ⟨⟨Nat.le_refl n, nofun, .nil, nofun⟩,
          fun name hname => .inl (List.mem_singleton.mp hname ▸ by decide)⟩
      · have hmembers : ∀ entry ∈ fs, ∀ n, (entry.2.draft called n).Sound n ∧
            (entry.2.draft called n).value.KnownIn (entry.2.draft called n).decls :=
          fun entry hentry => ihMembers entry hentry fun key hkey =>
            hcalled key (mem_keys_of_member hentry (.inr hkey))
        have hnames : ∀ entry ∈ fs, called entry.1 ≠ "" := fun entry hentry =>
          hcalled _ (mem_keys_of_member hentry (.inl rfl))
        have hfields := sound_draftFields hmembers hnames (n + 1)
        rw [draft]
        exact ⟨hfields.1.cons hfields.2 _, fun name hname => .inr
          (List.mem_singleton.mp hname ▸ List.mem_cons_self)⟩
    · have he : (node (some e) fields).element = some e := rfl
      obtain ⟨hsound, hknown⟩ := ihElement e he
        (fun key hkey => hcalled key (mem_keys_of_element he hkey)) n
      rw [draft]
      exact ⟨⟨hsound.le, hsound.within, hsound.ordered, hsound.plain⟩, hknown⟩

/-- Templates reach all fields that are drafted. -/
theorem exported_draftFields {fs : List (String × CallTree)}
    (hcalled : ∀ entry ∈ fs, IsNameFor entry.1 (called entry.1)) (n : Nat) :
    ∀ f ∈ (draftFields called n fs).value, isExported f.name = true := by
  induction fs generalizing n with
  | nil => exact nofun
  | cons entry rest ih =>
    obtain ⟨key, t⟩ := entry
    obtain ⟨hfirst, hothers⟩ := List.forall_mem_cons.mp hcalled
    rw [draftFields, draftEntry]
    exact List.forall_mem_cons.mpr ⟨hfirst.exported, ih hothers _⟩

/-- The field that is drafted for a key is found under it. -/
theorem find?_draftFields {fs : List (String × CallTree)} (hkeys : (fs.map Prod.fst).Nodup)
    (hcalled : ∀ entry ∈ fs, IsNameFor entry.1 (called entry.1)) {entry : String × CallTree}
    (hentry : entry ∈ fs) (n : Nat) :
    ∃ m, (draftFields called n fs).value.find? (fun f => Text.lowercase f.name == entry.1) =
        some ⟨called entry.1, (entry.2.draft called m).value, false⟩ ∧
      (entry.2.draft called m).decls ⊆ (draftFields called n fs).decls := by
  induction fs generalizing n with
  | nil => cases hentry
  | cons first rest ih =>
    obtain ⟨key, t⟩ := first
    obtain ⟨hnew, hrest⟩ := List.nodup_cons.mp hkeys
    obtain ⟨hfirst, hothers⟩ := List.forall_mem_cons.mp hcalled
    rw [draftFields, draftEntry, List.find?_cons, hfirst.lowercase]
    rcases List.mem_cons.mp hentry with rfl | hentry
    · rw [beq_self_eq_true]
      exact ⟨n, rfl, List.subset_append_left _ _⟩
    · have hne : (key == entry.1) = false :=
        beq_eq_false_iff_ne.mpr fun hk => hnew (List.mem_map.mpr ⟨entry, hentry, hk.symm⟩)
      obtain ⟨m, hfind, hdecls⟩ := ih hrest hothers hentry (t.draft called n).next
      rw [hne]
      exact ⟨m, hfind, List.subset_append_of_subset_right _ hdecls⟩

end CallTree

/-! ### Accepted drafts -/

/-- **The declarations of a draft are an acceptable catalog file.** -/
theorem Draft.Sound.wellFormed {α : Type} {n : Nat} {d : Draft α} (h : d.Sound n) :
    (⟨d.decls⟩ : CatalogFile).WellFormed where
  not_builtin entry hentry := by
    obtain ⟨k, -, -, hk⟩ := h.within entry hentry
    rw [hk]
    exact recordName_not_builtin k
  one_form entry hentry := .inl (h.plain entry hentry).record
  named entry hentry f hf _ := ((h.plain entry hentry).fields f hf).named
  known entry hentry type htype := by
    have hplain := h.plain entry hentry
    rw [TypeDecl.mentioned, hplain.record, hplain.no_methods] at htype
    obtain ⟨f, hf, rfl⟩ := List.mem_map.mp (by simpa using htype)
    exact (hplain.fields f hf).known
  embeds_struct entry hentry f hf hembedded := by
    rw [((h.plain entry hentry).fields f hf).not_embedded] at hembedded
    cases hembedded
  underlying_acyclic a hcircle := by
    obtain ⟨b, ⟨decl, underlying, hdecl, hunderlying, -⟩, -⟩ := TransGen.head'_iff.mp hcircle
    rw [(h.plain _ (CatalogFile.mem_of_lookup hdecl)).record] at hunderlying
    cases hunderlying
  embedding_acyclic a hcircle := by
    obtain ⟨b, ⟨decl, f, hdecl, -, hf, hembedded, -⟩, -⟩ := TransGen.head'_iff.mp hcircle
    rw [((h.plain _ (CatalogFile.mem_of_lookup hdecl)).fields f hf).not_embedded] at hembedded
    cases hembedded

section Plain

variable {types : List (String × TypeDecl)} {name : String} {decl : TypeDecl}

/-- A record of plain fields has the members that it declares. -/
theorem FieldSet.ofStruct_of_plain (hdecl : types.lookup name = some decl)
    (hplain : decl.Plain types) (hexported : ∀ f ∈ decl.fields, isExported f.name = true) :
    ofStruct types name = empty.insertAll (decl.fields.map fun f => (f.name, f.type)) := by
  have hfieldName : ∀ f ∈ decl.fields, f.fieldName = f.name := fun f hf =>
    if_pos (hplain.fields f hf).named
  have hvisible : decl.fields.filter FieldDecl.isVisible = decl.fields :=
    List.filter_eq_self.mpr fun f hf => by
      rw [FieldDecl.isVisible, hfieldName f hf, hexported f hf, Bool.or_true]
  have hown : decl.ownMembers = decl.fields.map fun f => (f.name, f.type) := by
    rw [TypeDecl.ownMembers, hvisible, hplain.no_methods]
    exact (List.append_nil _).trans
      (List.map_congr_left fun f hf => congrArg (·, f.type) (hfieldName f hf))
  have hembeds : decl.embeds = [] := by
    have hnone : decl.fields.filter FieldDecl.embedded = [] :=
      List.filter_eq_nil_iff.mpr fun f hf => by simp [(hplain.fields f hf).not_embedded]
    rw [TypeDecl.embeds, hnone]
    rfl
  have hnext : nextLevel types [name] = [] := by
    simp [nextLevel, hdecl, hembeds]
  obtain ⟨first, rest, htypes⟩ := List.exists_cons_of_ne_nil
    (List.ne_nil_of_mem (CatalogFile.mem_of_lookup hdecl))
  have hlevels : (levels types types.length [name]).flatMap (levelMembers types) =
      levelMembers types [name] := by
    have hlength : types.length = rest.length + 1 := by rw [htypes, List.length_cons]
    rw [hlength, flatMap_levels, hnext]
    cases rest.length <;> simp [levels]
  rw [ofStruct, hlevels, levelMembers, ← hown]
  simp [hdecl]

end Plain

/-! ### What fits -/

namespace Catalog

section Plain

variable {types : List (String × TypeDecl)} {name : String}

/-- A built-in name that is not declared stands for a scalar. -/
theorem settle_builtin (hnames : (types.map Prod.fst).Nodup) (hname : name ∈ builtinScalars)
    (hfree : ∀ entry ∈ types, entry.1 ∉ builtinScalars) :
    (ofTypes types).settle (.named name) = .scalar := by
  have hnone : types.lookup name = none := by
    rw [Keyed.lookup_eq_none_iff_notMem, List.mem_map]
    rintro ⟨entry, hentry, rfl⟩
    exact hfree entry hentry hname
  have hlookup : (ofTypes types).entries.lookup name = some .scalar := by
    rw [lookup_ofTypes hnames, hnone, lookup_builtins, if_pos hname]
    rfl
  rw [settle, settleWithin.eq_def]
  simp only [TypeExpr.stripPointers, hlookup]

/-- The name of a declared record stands for its members. -/
theorem settle_record (hnames : (types.map Prod.fst).Nodup) {decl : TypeDecl}
    (hdecl : types.lookup name = some decl) (hrecord : decl.underlying = none) :
    (ofTypes types).settle (.named name) = .struct (FieldSet.ofStruct types name) := by
  have hlookup : (ofTypes types).entries.lookup name =
      some (.struct (FieldSet.ofStruct types name)) := by
    rw [lookup_ofTypes hnames, hdecl, Option.map_some, declaredEntry, hrecord]
    rfl
  rw [settle, settleWithin.eq_def]
  simp only [TypeExpr.stripPointers, hlookup]

theorem settle_slice (c : Catalog) (inner : TypeExpr) :
    c.settle (.slice inner) = .slice inner := by
  rw [settle, settleWithin.eq_def]
  rfl

/-- A declared record has under each key the type that is drafted for the field. -/
theorem get?_draftFields {called : String → String} {n : Nat} {fs : List (String × CallTree)}
    (hdecl : types.lookup name = some ⟨none, (CallTree.draftFields called n fs).value, []⟩)
    (hplain : TypeDecl.Plain types ⟨none, (CallTree.draftFields called n fs).value, []⟩)
    (hkeys : Keyed.Ordered fs) (hcalled : ∀ entry ∈ fs, IsNameFor entry.1 (called entry.1))
    {entry : String × CallTree} (hentry : entry ∈ fs) :
    ∃ m, (FieldSet.ofStruct types name).get? entry.1 = some (entry.2.draft called m).value ∧
      (entry.2.draft called m).decls ⊆ (CallTree.draftFields called n fs).decls := by
  obtain ⟨m, hfind, hneeds⟩ := CallTree.find?_draftFields hkeys.nodup_keys hcalled hentry n
  refine ⟨m, ?_, hneeds⟩
  have hmember : (((CallTree.draftFields called n fs).value.map fun f => (f.name, f.type)).find?
      fun member => Text.lowercase member.1 == entry.1) =
        some (called entry.1, (entry.2.draft called m).value) := by
    rw [List.find?_map, Function.comp_def, hfind]
    rfl
  have hstruct := FieldSet.ofStruct_of_plain hdecl hplain (CallTree.exported_draftFields hcalled n)
  have hempty : Keyed.Ordered FieldSet.empty.entries := .nil
  rw [FieldSet.get?, (hcalled entry hentry).lowercase_key, hstruct,
    FieldSet.lookup_insertAll _ _ _ hempty, hmember]
  rfl

/-- **A tree fits the type that is drafted for it**, in any catalog of plain records that has the
declarations of the draft. -/
theorem mismatches_draft (hnames : (types.map Prod.fst).Nodup)
    (hfree : ∀ entry ∈ types, entry.1 ∉ builtinScalars)
    (hplain : ∀ entry ∈ types, entry.2.Plain types) (suggest : Suggester)
    {called : String → String} (t : CallTree) :
    ∀ (n : Nat) (path : List Step), t.isConsistent = true → t.Ordered →
      (∀ key ∈ t.keys, IsNameFor key (called key)) → (t.draft called n).decls ⊆ types →
      (ofTypes types).mismatches suggest path (t.draft called n).value t = [] := by
  induction t with
  | step t ihElement ihMembers =>
    intro n path hconsistent hordered hcalled hdecls
    obtain ⟨hroot, hconsistentElement, hconsistentMembers⟩ :=
      CallTree.isConsistent_iff.mp hconsistent
    obtain ⟨horderedElement, hkeys, horderedMembers⟩ := CallTree.ordered_iff.mp hordered
    rw [mismatches_eq_nil_iff]
    obtain ⟨_ | e, fields⟩ := t
    · rcases fields with _ | fs
      · have hscalar : (ofTypes types).settle (.named "string") = .scalar :=
          settle_builtin hnames (by decide) hfree
        rw [CallTree.draft, hscalar]
        rfl
      · rw [CallTree.draft] at hdecls ⊢
        obtain ⟨hrecord, hneeded⟩ := List.cons_subset.mp hdecls
        have hdecl := Keyed.lookup_eq_some_of_mem hnames hrecord
        have hcalledKeys : ∀ entry ∈ fs, IsNameFor entry.1 (called entry.1) := fun entry hentry =>
          hcalled _ (CallTree.mem_keys_of_member hentry (.inl rfl))
        rw [settle_record hnames hdecl rfl]
        refine ⟨rfl, fun entry hentry => ?_⟩
        obtain ⟨m, hget, hneeds⟩ :=
          get?_draftFields hdecl (hplain _ hrecord) hkeys hcalledKeys hentry
        rw [entryMismatches]
        simp only [hget]
        exact ihMembers entry hentry m _ (hconsistentMembers entry hentry)
          (horderedMembers entry hentry)
          (fun key hkey => hcalled key (CallTree.mem_keys_of_member hentry (.inr hkey)))
          (List.Subset.trans hneeds hneeded)
    · have he : (CallTree.node (some e) fields).element = some e := rfl
      have hmembers : (CallTree.node (some e) fields).members = [] := by
        rcases hroot with h | h
        · cases h
        · exact h
      rw [CallTree.draft] at hdecls ⊢
      rw [settle_slice]
      refine ⟨hmembers, fun e' he' => ?_⟩
      cases he'
      exact ihElement e he n _ (hconsistentElement e he) (horderedElement e he)
        (fun key hkey => hcalled key (CallTree.mem_keys_of_element he hkey)) hdecls

end Plain

/-- **The one obstacle is a conflict.** A tree that somewhere is iterated and drilled into fits no
type of any catalog. A consistent tree fits a type of some accepted catalog, if each of its keys is
the lower case of a name that templates can reach. -/
theorem fits_iff_consistent (t : CallTree) :
    (t.isConsistent = false → ∀ (c : Catalog) (suggest : Suggester) (type : TypeExpr),
      (c.validate suggest t type).isValid = false) ∧
    (t.isConsistent = true → t.Ordered → (∀ key ∈ t.keys, ∃ name, IsNameFor key name) →
      ∃ (file : CatalogFile) (c : Catalog) (type : TypeExpr), Keyed.Ordered file.types ∧
        Catalog.ofFile file = .ok c ∧
        ∀ suggest, (c.validate suggest t type).mismatches = []) := by
  refine ⟨fun hconflict c suggest type => ?_, fun hconsistent hordered hkeys => ?_⟩
  · rw [Bool.eq_false_iff, Ne, isValid_validate_iff]
    intro hvalid
    rw [c.isConsistent_of_mismatches suggest t [] type hvalid] at hconflict
    cases hconflict
  · choose! called hcalled using hkeys
    obtain ⟨hsound, -⟩ := CallTree.sound_draft t (fun key hkey => (hcalled key hkey).ne_empty) 0
    obtain ⟨c, hc⟩ := (ofFile_ok_iff ⟨(t.draft called 0).decls⟩).mpr hsound.wellFormed
    refine ⟨_, c, (t.draft called 0).value, hsound.ordered, hc, fun suggest => ?_⟩
    obtain ⟨hwellFormed, rfl⟩ := of_ofFile hc
    rw [mismatches_validate]
    exact mismatches_draft hsound.ordered.nodup_keys hwellFormed.not_builtin hsound.plain suggest
      t 0 [] hconsistent hordered hcalled (List.Subset.refl _)

/-- A list of records with a list in them fits some type; once the inner list is drilled into as
well, the tree fits none. -/
theorem fits_iff_consistent_items :
    let tags : CallTree := .node (some .empty) none
    let both : CallTree := .node (some .empty) (some [("id", .empty)])
    let items (inner : CallTree) : CallTree :=
      .node none (some [("items", .node (some (.node none (some [("tags", inner)]))) none)])
    (∃ (file : CatalogFile) (c : Catalog) (type : TypeExpr), Keyed.Ordered file.types ∧
      Catalog.ofFile file = .ok c ∧
      ∀ suggest, (c.validate suggest (items tags) type).mismatches = []) ∧
    ∀ (c : Catalog) (suggest : Suggester) (type : TypeExpr),
      (c.validate suggest (items both) type).isValid = false := by
  intro tags both items
  have hordered : (items tags).Ordered := by
    simp [items, tags, CallTree.Ordered, CallTree.OrderedElement, CallTree.OrderedFields,
      CallTree.OrderedEntries, CallTree.OrderedEntry, Keyed.Ordered, CallTree.empty]
  have hitems : IsNameFor "items" "Items" := ⟨by decide, by decide, by decide⟩
  have htags : IsNameFor "tags" "Tags" := ⟨by decide, by decide, by decide⟩
  have hkeys : ∀ key ∈ (items tags).keys, ∃ name, IsNameFor key name := by
    have hall : (items tags).keys = ["items", "tags"] := rfl
    rw [hall]
    simp only [List.forall_mem_cons]
    exact ⟨⟨_, hitems⟩, ⟨_, htags⟩, List.forall_mem_nil _⟩
  exact ⟨(fits_iff_consistent (items tags)).2 rfl hordered hkeys,
    (fits_iff_consistent (items both)).1 rfl⟩

end Catalog

end Fieldwise
