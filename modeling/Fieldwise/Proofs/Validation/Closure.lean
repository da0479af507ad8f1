import Fieldwise.Proofs.Catalog.Accepted
import Fieldwise.Proofs.Validation.Walk

/-!
# An accepted catalog knows every type that a walk comes to

* `Catalog.Closed` : every name that an entry of a catalog mentions is known, and no name is, by
  way of others, another name for itself.
* `Catalog.closed_of_ofFile` : an accepted catalog is closed.
* `Closed.resolve`, `Closed.settle` : in a closed catalog a known type has a shape, and all types
  in the shape are known.
* `Catalog.Visits` : the types whose shapes are asked for while a tree is checked.
* `Catalog.accepted_closed` : no check against a known type meets an unknown one.

Following other names takes fuel. It never runs out: the names on the way differ from each other
and all of them are declared (`Closed.length_lt`).
-/

set_option autoImplicit false

namespace Fieldwise

open Relation

theorem TypeExpr.names_stripPointers (type : TypeExpr) : type.stripPointers.names = type.names := by
  induction type with
  | pointer target ih => exact ih
  | _ => rfl

/-- Behind all leading pointers there is no further pointer. -/
theorem TypeExpr.stripPointers_ne_pointer (type target : TypeExpr) :
    type.stripPointers ≠ .pointer target := by
  induction type with
  | pointer inner ih => exact ih
  | _ => exact TypeExpr.noConfusion

/-- Only the disagreement over an unknown type is worded like one: no other begins with its
letter. -/
theorem Disagreement.message_ne_unknownType {d : Disagreement}
    (h : ∀ name, d ≠ .unknownType name) (name : String) :
    d.message ≠ (Disagreement.unknownType name).message := by
  have hunknown : (Disagreement.unknownType name).message.toList.head? = some 'u' := by
    change ("unknown type '" ++ name ++ "'").toList.head? = some 'u'
    simp
  intro heq
  rw [← heq] at hunknown
  cases d with
  | unknownType other => exact h other rfl
  | partOfScalar => exact absurd hunknown (by decide)
  | structAsList => exact absurd hunknown (by decide)
  | listAsStruct => exact absurd hunknown (by decide)
  | missingField key =>
    change ("field '" ++ key ++ "' is missing").toList.head? = some 'u' at hunknown
    simp at hunknown

namespace Catalog

/-- Every name in a type expression is known. -/
def Knows (c : Catalog) (type : TypeExpr) : Prop :=
  ∀ name ∈ type.names, c.contains name = true

/-- The name `a` is another name for `b`, or for a pointer to it. -/
def AliasOf (c : Catalog) (a b : String) : Prop :=
  ∃ underlying, c.entries.lookup a = some (.alias underlying) ∧
    underlying.targetName? = some b

/-- Nothing unknown is mentioned, and other names do not go in a circle. -/
structure Closed (c : Catalog) : Prop where
  alias_known : ∀ name underlying, c.entries.lookup name = some (.alias underlying) →
    c.Knows underlying
  member_known : ∀ name fields key type, c.entries.lookup name = some (.struct fields) →
    fields.get? key = some type → c.Knows type
  acyclic : Acyclic c.AliasOf

/-! ## Accepted catalogs are closed -/

section Accepted

variable {file : CatalogFile} {name : String}

theorem contains_ofTypes (hnames : (file.types.map Prod.fst).Nodup) :
    (ofTypes file.types).contains name = true ↔
      name ∈ builtinScalars ∨ name ∈ file.types.map Prod.fst := by
  rw [← CatalogFile.isKnown_iff, CatalogFile.isKnown, contains, Keyed.contains, Keyed.contains,
    lookup_ofTypes hnames, lookup_builtins, List.contains_eq_mem]
  by_cases hbuiltin : name ∈ builtinScalars <;> cases file.types.lookup name <;>
    simp only [hbuiltin, if_true, if_false, decide_true, decide_false, Option.map_some,
      Option.map_none, Option.some_or, Option.none_or, Option.isSome_some, Option.isSome_none,
      Bool.or_true, Bool.or_false]

/-- A name that has a further entry than a scalar's is declared. -/
theorem declared_of_entry (hnames : (file.types.map Prod.fst).Nodup) {entry : CatalogEntry}
    (h : (ofTypes file.types).entries.lookup name = some entry) (hentry : entry ≠ .scalar) :
    ∃ decl, file.types.lookup name = some decl ∧
      declaredEntry file.types (name, decl) = entry := by
  rw [lookup_ofTypes hnames, lookup_builtins] at h
  cases hdecl : file.types.lookup name with
  | some decl =>
    rw [hdecl] at h
    exact ⟨decl, rfl, Option.some.inj h⟩
  | none =>
    rw [hdecl, Option.map_none, Option.none_or] at h
    split at h
    · exact absurd (Option.some.inj h).symm hentry
    · cases h

/-- Another name is declared as such. -/
theorem declared_of_alias (hnames : (file.types.map Prod.fst).Nodup) {underlying : TypeExpr}
    (h : (ofTypes file.types).entries.lookup name = some (.alias underlying)) :
    ∃ decl, file.types.lookup name = some decl ∧ decl.underlying = some underlying := by
  obtain ⟨decl, hdecl, hentry⟩ := declared_of_entry hnames h CatalogEntry.noConfusion
  refine ⟨decl, hdecl, ?_⟩
  rw [declaredEntry] at hentry
  split at hentry <;> simp_all

/-- The members of a record are those of its declaration. -/
theorem declared_of_struct (hnames : (file.types.map Prod.fst).Nodup) {fields : FieldSet}
    (h : (ofTypes file.types).entries.lookup name = some (.struct fields)) :
    fields = FieldSet.ofStruct file.types name := by
  obtain ⟨decl, hdecl, hentry⟩ := declared_of_entry hnames h CatalogEntry.noConfusion
  rw [declaredEntry] at hentry
  split at hentry <;> simp_all

/-- Whatever a declaration offers, it mentions the type of. -/
theorem mem_mentioned_of_offers {decl : TypeDecl} {place : Nat} {type : TypeExpr}
    (h : decl.Offers place name type) : type ∈ decl.mentioned := by
  rw [TypeDecl.mentioned]
  cases h with
  | field hf hvisible =>
    refine List.mem_append_left _ (List.mem_append_right _ ?_)
    exact List.mem_map_of_mem (List.mem_of_getElem? hf)
  | method hm hexported hparams hresults =>
    refine List.mem_append_right _ (List.mem_flatMap.mpr ⟨_, List.mem_of_getElem? hm, ?_⟩)
    rw [hparams, hresults]
    exact List.mem_singleton_self type

/-- The type of a member is mentioned by some declaration, however deep it is embedded. -/
theorem mentioned_of_member {record key : String} {type : TypeExpr}
    (h : (FieldSet.ofStruct file.types record).get? key = some type) :
    ∃ entry ∈ file.types, type ∈ entry.2.mentioned := by
  rw [FieldSet.get?, FieldSet.lookup_ofStruct, Option.map_eq_some_iff] at h
  obtain ⟨⟨⟨path, place⟩, name, type⟩, hfind, rfl⟩ := h
  obtain ⟨count, -, hmember⟩ := List.mem_flatMap.mp (List.mem_of_find?_eq_some hfind)
  obtain ⟨-, owner, decl, -, hdecl, hoffers⟩ := CatalogFile.mem_membersAt.mp hmember
  exact ⟨(owner, decl), CatalogFile.mem_of_lookup hdecl, mem_mentioned_of_offers hoffers⟩

/-- **An accepted catalog is closed.** -/
theorem closed_ofTypes (w : file.WellFormed) (hnames : (file.types.map Prod.fst).Nodup) :
    (ofTypes file.types).Closed := by
  have hknown : ∀ entry ∈ file.types, ∀ type ∈ entry.2.mentioned,
      (ofTypes file.types).Knows type := fun entry hentry type htype n hn =>
    (contains_ofTypes hnames).mpr (w.known entry hentry type htype n hn)
  refine ⟨fun name underlying h => ?_, fun name fields key type h hget => ?_, fun a hcircle => ?_⟩
  · obtain ⟨decl, hdecl, hunderlying⟩ := declared_of_alias hnames h
    refine hknown _ (CatalogFile.mem_of_lookup hdecl) underlying ?_
    simp [TypeDecl.mentioned, hunderlying]
  · rw [declared_of_struct hnames h] at hget
    obtain ⟨entry, hentry, htype⟩ := mentioned_of_member hget
    exact hknown entry hentry type htype
  · refine w.underlying_acyclic a (TransGen.mono (fun a b hab => ?_) a a hcircle)
    obtain ⟨underlying, hentry, htarget⟩ := hab
    obtain ⟨decl, hdecl, hunderlying⟩ := declared_of_alias hnames hentry
    exact ⟨decl, underlying, hdecl, hunderlying, htarget⟩

end Accepted

/-! ## Shapes in a closed catalog -/

/-- Every type in a shape is known. -/
def KnowsShape (c : Catalog) : TypeShape → Prop
  | .scalar => True
  | .struct fields => ∀ key type, fields.get? key = some type → c.Knows type
  | .pointer target => c.Knows target
  | .slice element => c.Knows element
  | .map key value => c.Knows key ∧ c.Knows value

/-- The shape is not that of an unknown name, and every type in it is known. -/
def KnowsSettled (c : Catalog) : SettledShape → Prop
  | .unknown _ => False
  | .scalar => True
  | .struct fields => ∀ key type, fields.get? key = some type → c.Knows type
  | .slice element => c.Knows element
  | .map key value => c.Knows key ∧ c.Knows value

/-- Another name is declared. -/
theorem mem_declaredNames_of_alias {c : Catalog} {name : String} {underlying : TypeExpr}
    (h : c.entries.lookup name = some (.alias underlying)) : name ∈ c.declaredNames := by
  obtain ⟨l, r, hentries, -⟩ := List.lookup_eq_some_iff.mp h
  refine List.mem_map.mpr ⟨(name, .alias underlying), List.mem_filter.mpr ⟨?_, rfl⟩, rfl⟩
  simp [hentries]

theorem length_declaredNames_le (c : Catalog) : c.declaredNames.length ≤ c.entries.length := by
  rw [declaredNames, List.length_map]
  exact List.length_filter_le _ _

namespace Closed

variable {c : Catalog}

/-- The names that lead to another name, through names between them or not, are fewer than the
declared ones. -/
theorem length_lt (hc : c.Closed) {before : List String} {name : String} {underlying : TypeExpr}
    (hchain : (before ++ [name]).IsChain (TransGen c.AliasOf))
    (hentry : c.entries.lookup name = some (.alias underlying)) :
    before.length < c.declaredNames.length := by
  have hnodup : (before ++ [name]).Nodup := by
    have hpairs := hchain
    rw [List.isChain_iff_pairwise] at hpairs
    refine hpairs.imp fun {a b} hab heq => ?_
    subst heq
    exact hc.acyclic a hab
  have hdeclared : ∀ n ∈ before ++ [name], n ∈ c.declaredNames := by
    intro n hn
    rcases List.mem_append.mp hn with hn | hn
    · have hleads := transGen_of_mem_chain hchain hn
      rw [transGen_eq_self] at hleads
      obtain ⟨b, ⟨_, hentry', -⟩, -⟩ := TransGen.head'_iff.mp hleads
      exact mem_declaredNames_of_alias hentry'
    · rw [List.mem_singleton.mp hn]
      exact mem_declaredNames_of_alias hentry
  have hle := hnodup.length_le_of_subset hdeclared
  rw [List.length_append, List.length_singleton] at hle
  omega

/-- The same where each name is another name for the next. -/
theorem length_lt_entries (hc : c.Closed) {before : List String} {name : String}
    {underlying : TypeExpr} (hchain : (before ++ [name]).IsChain c.AliasOf)
    (hentry : c.entries.lookup name = some (.alias underlying)) :
    before.length < c.entries.length :=
  (hc.length_lt (hchain.imp fun _ _ => TransGen.single) hentry).trans_le c.length_declaredNames_le

theorem resolveWithin (hc : c.Closed) :
    ∀ (fuel : Nat) (before : List String) (type : TypeExpr),
      (∀ name, type = .named name → (before ++ [name]).IsChain c.AliasOf) →
      c.entries.length ≤ before.length + fuel → c.Knows type →
      ∃ shape, c.resolveWithin fuel type = some shape ∧ c.KnowsShape shape
  | fuel, before, .pointer target, _, _, hknown => ⟨.pointer target, by cases fuel <;> rfl, hknown⟩
  | fuel, before, .slice element, _, _, hknown => ⟨.slice element, by cases fuel <;> rfl, hknown⟩
  | fuel, before, .array _ element, _, _, hknown => ⟨.slice element, by cases fuel <;> rfl, hknown⟩
  | fuel, before, .map key value, _, _, hknown =>
    ⟨.map key value, by cases fuel <;> rfl, List.forall_mem_append.mp hknown⟩
  | fuel, before, .named name, hchain, hfuel, hknown => by
    obtain ⟨entry, hentry⟩ := Option.isSome_iff_exists.mp (hknown name (List.mem_singleton_self _))
    cases entry with
    | scalar => exact ⟨.scalar, by cases fuel <;> simp [Catalog.resolveWithin, hentry], trivial⟩
    | struct fields =>
      exact ⟨.struct fields, by cases fuel <;> simp [Catalog.resolveWithin, hentry],
        fun key type => hc.member_known name fields key type hentry⟩
    | «alias» underlying =>
      have hlt := hc.length_lt_entries (hchain name rfl) hentry
      cases fuel with
      | zero => omega
      | succ fuel =>
        obtain ⟨shape, hshape, hknown'⟩ := hc.resolveWithin fuel (before ++ [name]) underlying
          (fun next hnext => isChain_append_step (hchain name rfl)
            ⟨underlying, hentry, by rw [hnext]; rfl⟩)
          (by rw [List.length_append, List.length_singleton]; omega)
          (hc.alias_known name underlying hentry)
        exact ⟨shape, by simp [Catalog.resolveWithin, hentry, hshape], hknown'⟩

/-- **A known type has a shape**, and all types in the shape are known. -/
theorem resolve (hc : c.Closed) {type : TypeExpr} (h : c.Knows type) :
    ∃ shape, c.resolve type = some shape ∧ c.KnowsShape shape :=
  hc.resolveWithin c.entries.length [] type (fun _ _ => List.isChain_singleton _) (by simp) h

theorem settleWithin (hc : c.Closed) :
    ∀ (fuel : Nat) (before : List String) (type : TypeExpr),
      (∀ name, type.targetName? = some name → (before ++ [name]).IsChain c.AliasOf) →
      c.entries.length ≤ before.length + fuel → c.Knows type →
      c.KnowsSettled (c.settleWithin fuel type)
  | fuel, before, type, hchain, hfuel, hknown => by
    have hstripped : c.Knows type.stripPointers := by
      rwa [Knows, TypeExpr.names_stripPointers]
    rw [Catalog.settleWithin.eq_def]
    generalize htarget : type.stripPointers = stripped at hstripped ⊢
    cases stripped with
    | pointer target => exact absurd htarget (type.stripPointers_ne_pointer target)
    | slice element => exact hstripped
    | array length element => exact hstripped
    | map key value => exact List.forall_mem_append.mp hstripped
    | named name =>
      have hname : type.targetName? = some name := by
        rw [TypeExpr.targetName?, htarget]
        rfl
      obtain ⟨entry, hentry⟩ :=
        Option.isSome_iff_exists.mp (hstripped name (List.mem_singleton_self _))
      simp only [hentry]
      cases entry with
      | scalar => trivial
      | struct fields => exact fun key type => hc.member_known name fields key type hentry
      | «alias» underlying =>
        have hlt := hc.length_lt_entries (hchain name hname) hentry
        cases fuel with
        | zero => omega
        | succ fuel =>
          exact hc.settleWithin fuel (before ++ [name]) underlying
            (fun next hnext => isChain_append_step (hchain name hname)
              ⟨underlying, hentry, hnext⟩)
            (by rw [List.length_append, List.length_singleton]; omega)
            (hc.alias_known name underlying hentry)

/-- **Behind pointers, too, a known type has a shape**, and all types in the shape are known. -/
theorem settle (hc : c.Closed) {type : TypeExpr} (h : c.Knows type) :
    c.KnowsSettled (c.settle type) :=
  hc.settleWithin c.entries.length [] type (fun _ _ => List.isChain_singleton _) (by simp) h

end Closed

/-! ## The walk -/

/-- Checking `t` against `type` comes to the subtree and the type given last. A pointer is followed
without a step of the tree. -/
inductive Visits (c : Catalog) (t : CallTree) (type : TypeExpr) : CallTree → TypeExpr → Prop
  | start : Visits c t type t type
  | pointer {s : CallTree} {reached target : TypeExpr} (h : Visits c t type s reached)
    (hshape : c.resolve reached = some (.pointer target)) : Visits c t type s target
  | element {s e : CallTree} {reached inner : TypeExpr} (h : Visits c t type s reached)
    (hshape : c.resolve reached = some (.slice inner)) (he : s.element = some e) :
    Visits c t type e inner
  | key {s e : CallTree} {reached key value : TypeExpr} (h : Visits c t type s reached)
    (hshape : c.resolve reached = some (.map key value)) (he : s.element = some e) :
    Visits c t type e key
  | value {s e : CallTree} {reached key value : TypeExpr} (h : Visits c t type s reached)
    (hshape : c.resolve reached = some (.map key value)) (he : s.element = some e) :
    Visits c t type e value
  | field {s : CallTree} {entry : String × CallTree} {reached member : TypeExpr}
    {fields : FieldSet} (h : Visits c t type s reached)
    (hshape : c.resolve reached = some (.struct fields)) (hentry : entry ∈ s.members)
    (hmember : fields.get? entry.1 = some member) : Visits c t type entry.2 member

namespace Closed

variable {c : Catalog}

/-- A known type leads to known types only. -/
theorem knows_of_visits (hc : c.Closed) {t s : CallTree} {type reached : TypeExpr}
    (htype : c.Knows type) (h : c.Visits t type s reached) : c.Knows reached := by
  have hstep : ∀ {reached shape}, c.Knows reached → c.resolve reached = some shape →
      c.KnowsShape shape := by
    intro reached shape hknown hshape
    obtain ⟨shape', hshape', hknown'⟩ := hc.resolve hknown
    rw [hshape] at hshape'
    cases hshape'
    exact hknown'
  induction h with
  | start => exact htype
  | pointer _ hshape ih => exact hstep ih hshape
  | element _ hshape _ ih => exact hstep ih hshape
  | key _ hshape _ ih => exact (hstep ih hshape).1
  | value _ hshape _ ih => exact (hstep ih hshape).2
  | field _ hshape _ hmember ih => exact hstep ih hshape _ _ hmember

/-- The walk against a known type reports other disagreements only. -/
theorem mismatches_known (hc : c.Closed) (suggest : Suggester) (t : CallTree) :
    ∀ (path : List Step) (type : TypeExpr), c.Knows type →
      ∀ m ∈ c.mismatches suggest path type t, ∃ d : Disagreement,
        (∀ name, d ≠ .unknownType name) ∧ m.message = d.message := by
  induction t with
  | step t ihElement ihMembers =>
    intro path type htype m hm
    have hknown := hc.settle htype
    have hone : ∀ d : Disagreement, (∀ name, d ≠ .unknownType name) → m = d.at path →
        ∃ d : Disagreement, (∀ name, d ≠ .unknownType name) ∧ m.message = d.message := by
      rintro d hd rfl
      exact ⟨d, hd, rfl⟩
    rw [mismatches_eq] at hm
    split at hm
    · rename_i hshape
      rw [hshape] at hknown
      exact hknown.elim
    · split at hm
      · cases hm
      · exact hone .partOfScalar (fun _ => Disagreement.noConfusion) (List.mem_singleton.mp hm)
    · rename_i inner hshape
      rw [hshape] at hknown
      split at hm
      · obtain ⟨e, he, hm⟩ := List.mem_flatMap.mp hm
        exact ihElement e (Option.mem_toList.mp he) _ inner hknown m hm
      · exact hone .listAsStruct (fun _ => Disagreement.noConfusion) (List.mem_singleton.mp hm)
    · rename_i key value hshape
      rw [hshape] at hknown
      split at hm
      · obtain ⟨e, he, hm⟩ := List.mem_flatMap.mp hm
        rcases List.mem_append.mp hm with hm | hm
        · exact ihElement e (Option.mem_toList.mp he) _ key hknown.1 m hm
        · exact ihElement e (Option.mem_toList.mp he) _ value hknown.2 m hm
      · exact hone .listAsStruct (fun _ => Disagreement.noConfusion) (List.mem_singleton.mp hm)
    · rename_i fields hshape
      rw [hshape] at hknown
      split at hm
      · exact hone .structAsList (fun _ => Disagreement.noConfusion) (List.mem_singleton.mp hm)
      · obtain ⟨⟨key, child⟩, hentry, hm⟩ := List.mem_flatMap.mp hm
        rw [entryMismatches] at hm
        split at hm
        · rename_i member hmember
          exact ihMembers _ hentry _ member (hknown key member hmember) m hm
        · rw [List.mem_singleton.mp hm]
          exact ⟨.missingField key, fun _ => Disagreement.noConfusion, rfl⟩

/-- The empty tree fits every known type. -/
theorem mismatches_empty (hc : c.Closed) (suggest : Suggester) (path : List Step)
    {type : TypeExpr} (htype : c.Knows type) : c.mismatches suggest path type .empty = [] := by
  have hknown := hc.settle htype
  have hleaf : CallTree.empty.isLeaf = true := rfl
  rw [mismatches_eq]
  cases hshape : c.settle type with
  | unknown name =>
    rw [hshape] at hknown
    exact hknown.elim
  | scalar => simp [hleaf]
  | struct fields => simp
  | slice inner => simp
  | map key value => simp

end Closed

/-- **An accepted catalog is closed.** Whatever tree is checked against a type whose names are all
known, each type that the check comes to has a shape, and no mismatch tells of an unknown type. The
empty tree fits every such type, and every declared name has a shape. -/
theorem accepted_closed {file : CatalogFile} {c : Catalog} (hfile : Catalog.ofFile file = .ok c)
    (hnames : (file.types.map Prod.fst).Nodup) :
    (∀ type, c.Knows type → ∀ t : CallTree,
      (∀ s reached, c.Visits t type s reached → (c.resolve reached).isSome = true) ∧
      ∀ suggest, (∀ m ∈ (c.validate suggest t type).mismatches, ∀ name,
          m.message ≠ (Disagreement.unknownType name).message) ∧
        (c.validate suggest .empty type).isValid = true) ∧
    ∀ name ∈ file.types.map Prod.fst, (c.resolve (.named name)).isSome = true := by
  obtain ⟨w, rfl⟩ := of_ofFile hfile
  have hc := closed_ofTypes w hnames
  have hshape : ∀ {type}, (ofTypes file.types).Knows type →
      ((ofTypes file.types).resolve type).isSome = true := by
    intro type htype
    obtain ⟨shape, hshape, -⟩ := hc.resolve htype
    rw [hshape, Option.isSome_some]
  refine ⟨fun type htype t => ⟨fun s reached h => hshape (hc.knows_of_visits htype h),
    fun suggest => ⟨fun m hm name => ?_, ?_⟩⟩, fun name hname => hshape ?_⟩
  · rw [mismatches_validate] at hm
    obtain ⟨d, hd, hmessage⟩ := hc.mismatches_known suggest t [] type htype m hm
    rw [hmessage]
    exact Disagreement.message_ne_unknownType hd name
  · exact isValid_validate_iff.mpr (hc.mismatches_empty suggest [] htype)
  · intro n hn
    rw [List.mem_singleton.mp hn]
    exact (contains_ofTypes hnames).mpr (.inr hname)

/-- Nodes hold lists of nodes: a tree may go down as far as it likes. -/
theorem accepted_closed_nodes :
    let file : CatalogFile :=
      ⟨[("List", ⟨some (.slice (.pointer (.named "Node"))), [], []⟩),
        ("Node", ⟨none, [⟨"Rest", .named "List", false⟩,
          ⟨"Named", .map (.named "string") (.named "Node"), false⟩], []⟩)]⟩
    let type : TypeExpr := .pointer (.named "List")
    ∃ c, Catalog.ofFile file = .ok c ∧ (file.types.map Prod.fst).Nodup ∧ c.Knows type ∧
      (∀ t s reached, c.Visits t type s reached → (c.resolve reached).isSome = true) ∧
      (∀ suggest t, ∀ m ∈ (c.validate suggest t type).mismatches, ∀ name,
        m.message ≠ (Disagreement.unknownType name).message) ∧
      (∀ suggest, (c.validate suggest .empty type).isValid = true) ∧
      (c.resolve (.named "List")).isSome = true := by
  intro file type
  have hfile : Catalog.ofFile file = .ok (ofTypes file.types) :=
    ofFile_of_isOk (by decide +kernel)
  have hnames : (file.types.map Prod.fst).Nodup := by decide
  have htype : (ofTypes file.types).Knows type := by
    intro name hname
    rw [List.mem_singleton.mp hname]
    exact (contains_ofTypes hnames).mpr (.inr (by decide))
  obtain ⟨hwalk, hdeclared⟩ := accepted_closed hfile hnames
  exact ⟨_, hfile, hnames, htype, fun t => (hwalk type htype t).1,
    fun suggest t => ((hwalk type htype t).2 suggest).1,
    fun suggest => ((hwalk type htype .empty).2 suggest).2, hdeclared "List" (by decide)⟩

end Catalog

end Fieldwise
