import Fieldwise.Proofs.Validation.Pointers
import Fieldwise.Proofs.Validation.Shown

/-!
# Methods that templates cannot call

A method with parameters, or with another number of results than one, is no member of its record.
It leaves no trace either: it does not keep its name from the members that embedded records have
under it, as a method that templates can call would.

* `CatalogFile.exists_candidate_embeds_iff` : what lies in embedded records.
* `Catalog.ofTypes_callable` : the catalog is made of the methods that templates can call only.
* `Catalog.fieldSet?_uncallable` : under a name that a record has no member of its own for, whatever
  uncallable methods it declares, it has what the records that it embeds have.
-/

set_option autoImplicit false

namespace Fieldwise

/-! ## Leaving the methods out -/

/-- Templates cannot call the method like a field. -/
def MethodDecl.Uncallable (m : MethodDecl) : Prop :=
  m.params ≠ [] ∨ m.results.length ≠ 1

instance : DecidablePred MethodDecl.Uncallable := fun m =>
  inferInstanceAs (Decidable (m.params ≠ [] ∨ m.results.length ≠ 1))

theorem MethodDecl.templateResult?_eq_none_iff (m : MethodDecl) :
    m.templateResult? = none ↔ m.Uncallable := by
  obtain ⟨name, params, results⟩ := m
  rcases params with _ | ⟨param, params⟩ <;>
    rcases results with _ | ⟨first, _ | ⟨second, results⟩⟩ <;>
      simp [templateResult?, Uncallable]

/-- The declaration with only those methods that templates can call. -/
def TypeDecl.callable (decl : TypeDecl) : TypeDecl :=
  { decl with methods := decl.methods.filter fun m => ¬ m.Uncallable }

/-- The file with only those methods that templates can call. -/
def CatalogFile.callable (file : CatalogFile) : CatalogFile :=
  ⟨Keyed.mapValues TypeDecl.callable file.types⟩

namespace TypeDecl

/-- A method that is left out was not among the members. -/
theorem ownMembers_callable (decl : TypeDecl) : decl.callable.ownMembers = decl.ownMembers := by
  rw [ownMembers, ownMembers, callable, List.filter_filter, List.filterMap_filter,
    List.filterMap_filter]
  congr 1
  refine List.filterMap_congr fun m _ => ?_
  by_cases huncallable : m.Uncallable
  · have hresult := m.templateResult?_eq_none_iff.mpr huncallable
    simp [huncallable, hresult]
  · simp [huncallable]

theorem mem_mentioned_of_callable {decl : TypeDecl} {type : TypeExpr}
    (h : type ∈ decl.callable.mentioned) : type ∈ decl.mentioned := by
  rw [mentioned, List.mem_append] at h ⊢
  refine h.imp_right fun hmethods => ?_
  obtain ⟨m, hm, htype⟩ := List.mem_flatMap.mp hmethods
  exact List.mem_flatMap.mpr ⟨m, List.mem_of_mem_filter hm, htype⟩

theorem mem_embeds_iff {decl : TypeDecl} {target : String} :
    target ∈ decl.embeds ↔
      ∃ f ∈ decl.fields, f.embedded = true ∧ f.type.targetName? = some target := by
  simp only [embeds, List.mem_filterMap, List.mem_filter, and_assoc]

/-- Whether a record offers a member under a name can be read off the list of its members. -/
theorem forall_offers_ne {decl : TypeDecl} {key : String}
    (h : ∀ member ∈ decl.ownMembers, Text.lowercase member.1 ≠ key) (place : Nat) (name : String)
    (type : TypeExpr) (hoffers : decl.Offers place name type) : Text.lowercase name ≠ key := by
  rw [← map_placedMembers] at h
  exact h (name, type) (List.mem_map_of_mem (mem_placedMembers.mpr hoffers))

end TypeDecl

namespace CatalogFile

variable {types : List (String × TypeDecl)}

theorem standsFor_callable :
    StandsFor (Keyed.mapValues TypeDecl.callable types) = StandsFor types := by
  funext a b
  simp only [StandsFor, Keyed.lookup_mapValues, Option.map_eq_some_iff]
  refine propext ⟨?_, ?_⟩
  · rintro ⟨_, underlying, ⟨decl, hlookup, rfl⟩, hunderlying, htarget⟩
    exact ⟨decl, underlying, hlookup, hunderlying, htarget⟩
  · rintro ⟨decl, underlying, hlookup, hunderlying, htarget⟩
    exact ⟨decl.callable, underlying, ⟨decl, hlookup, rfl⟩, hunderlying, htarget⟩

theorem embeds_callable :
    Embeds (Keyed.mapValues TypeDecl.callable types) = Embeds types := by
  funext a b
  simp only [Embeds, Keyed.lookup_mapValues, Option.map_eq_some_iff]
  refine propext ⟨?_, ?_⟩
  · rintro ⟨_, f, ⟨decl, hlookup, rfl⟩, hf⟩
    exact ⟨decl, f, hlookup, hf⟩
  · rintro ⟨decl, f, hlookup, hf⟩
    exact ⟨decl.callable, f, ⟨decl, hlookup, rfl⟩, hf⟩

/-- An accepted file is accepted without the methods that templates cannot call. -/
theorem WellFormed.callable {file : CatalogFile} (w : file.WellFormed) :
    file.callable.WellFormed := by
  have hentries : ∀ entry ∈ file.callable.types, ∃ decl, (entry.1, decl) ∈ file.types ∧
      entry.2 = decl.callable := by
    intro entry hentry
    obtain ⟨⟨name, decl⟩, hdecl, rfl⟩ := List.mem_map.mp hentry
    exact ⟨decl, hdecl, rfl⟩
  refine ⟨?not_builtin, ?one_form, ?named, ?known, ?embeds_struct, ?underlying_acyclic,
    ?embedding_acyclic⟩
  case not_builtin =>
    intro entry hentry
    obtain ⟨decl, hdecl, -⟩ := hentries entry hentry
    exact w.not_builtin (entry.1, decl) hdecl
  case one_form =>
    intro entry hentry
    obtain ⟨decl, hdecl, hcallable⟩ := hentries entry hentry
    rw [hcallable]
    refine (w.one_form _ hdecl).imp_right fun hempty => ⟨hempty.1, ?_⟩
    rw [TypeDecl.callable, hempty.2]
    rfl
  case named =>
    intro entry hentry
    obtain ⟨decl, hdecl, hcallable⟩ := hentries entry hentry
    rw [hcallable]
    exact w.named _ hdecl
  case known =>
    intro entry hentry type htype name hname
    obtain ⟨decl, hdecl, hcallable⟩ := hentries entry hentry
    rw [hcallable] at htype
    have hkeys : file.callable.types.map Prod.fst = file.types.map Prod.fst :=
      Keyed.keys_mapValues TypeDecl.callable file.types
    rw [hkeys]
    exact w.known _ hdecl type (TypeDecl.mem_mentioned_of_callable htype) name hname
  case embeds_struct =>
    intro entry hentry f hf hembedded
    obtain ⟨decl, hdecl, hcallable⟩ := hentries entry hentry
    rw [hcallable] at hf
    obtain ⟨name, target, hname, hlookup, hrecord⟩ := w.embeds_struct _ hdecl f hf hembedded
    refine ⟨name, target.callable, hname, ?_, hrecord⟩
    rw [CatalogFile.callable, Keyed.lookup_mapValues, hlookup]
    rfl
  case underlying_acyclic =>
    rw [CatalogFile.callable, standsFor_callable]
    exact w.underlying_acyclic
  case embedding_acyclic =>
    rw [CatalogFile.callable, embeds_callable]
    exact w.embedding_acyclic

end CatalogFile

namespace Catalog

/-- **Methods that templates cannot call leave no trace in the catalog.** -/
theorem ofTypes_callable (types : List (String × TypeDecl)) :
    ofTypes (Keyed.mapValues TypeDecl.callable types) = ofTypes types := by
  have hembeds : ∀ name, ((Keyed.mapValues TypeDecl.callable types).lookup name).map
      TypeDecl.embeds = (types.lookup name).map TypeDecl.embeds := by
    intro name
    rw [Keyed.lookup_mapValues, Option.map_map]
    rfl
  have hmembers : ∀ name, ((Keyed.mapValues TypeDecl.callable types).lookup name).map
      TypeDecl.ownMembers = (types.lookup name).map TypeDecl.ownMembers := by
    intro name
    rw [Keyed.lookup_mapValues, Option.map_map]
    congr 1
    funext decl
    exact decl.ownMembers_callable
  have hlength : (Keyed.mapValues TypeDecl.callable types).length = types.length :=
    List.length_map _
  have hentry : ∀ entry : String × TypeDecl,
      declaredEntry (Keyed.mapValues TypeDecl.callable types) (entry.1, entry.2.callable) =
        declaredEntry types entry := by
    intro entry
    have hunderlying : entry.2.callable.underlying = entry.2.underlying := rfl
    rw [declaredEntry, declaredEntry, hunderlying,
      FieldSet.ofStruct_congr_members hembeds hmembers hlength]
  rw [ofTypes, ofTypes]
  congr 1
  rw [Keyed.mapValues, List.foldl_map]
  refine List.foldl_ext _ _ _ fun entries entry _ => ?_
  exact congrArg (Keyed.put entry.1 · entries) (hentry entry)

end Catalog

/-! ## What the embedded records have -/

namespace CatalogFile

variable {types : List (String × TypeDecl)} {record key : String}

/-- A candidate under a name that the record offers no member of its own for lies in an embedded
record. -/
theorem Candidate.path_ne_nil {decl : TypeDecl} (hdecl : types.lookup record = some decl)
    (halone : ∀ place name type, decl.Offers place name type →
      Text.lowercase name ≠ Text.lowercase key) (a : Candidate types record key) :
    a.path ≠ [] :=
  fun hpath => halone _ _ _ (a.offers_of_nil hdecl hpath) a.named

/-- The candidates that lie in embedded records are those that the embedded records have. -/
theorem exists_candidate_embeds_iff {decl : TypeDecl} (hdecl : types.lookup record = some decl) :
    (∃ a : Candidate types record key, a.path ≠ []) ↔
      ∃ target ∈ decl.embeds, Nonempty (Candidate types target key) := by
  constructor
  · rintro ⟨a, hpath⟩
    have hleads := a.leads
    obtain ⟨i, path, hcons⟩ := List.exists_cons_of_ne_nil hpath
    rw [hcons, leads_cons_iff] at hleads
    obtain ⟨first, f, target, hfirst, hf, hembedded, htarget, hrest⟩ := hleads
    have hown : first = decl := Option.some.inj (hfirst.symm.trans hdecl)
    rw [hown] at hf
    exact ⟨target,
      TypeDecl.mem_embeds_iff.mpr ⟨f, List.mem_of_getElem? hf, hembedded, htarget⟩,
      ⟨{ a with path := path, leads := hrest }⟩⟩
  · rintro ⟨target, htarget, ⟨a⟩⟩
    obtain ⟨f, hmem, hembedded, hname⟩ := TypeDecl.mem_embeds_iff.mp htarget
    obtain ⟨i, hf⟩ := List.mem_iff_getElem?.mp hmem
    exact ⟨{ a with
      path := i :: a.path
      leads := leads_cons_iff.mpr ⟨decl, f, target, hdecl, hf, hembedded, hname, a.leads⟩ },
      List.cons_ne_nil _ _⟩

end CatalogFile

namespace Catalog

open CatalogFile

variable {file : CatalogFile} {c : Catalog} {record key : String} {decl : TypeDecl}

/-- **A method that templates cannot call hides nothing.** In an accepted catalog let a record offer
no member of its own under a name; methods of that name that templates cannot call may be there.
The record then has a member under the name exactly if a record that it embeds has one, namely the
nearest that is reached by one embedded field or more, and a template may use the name exactly
then. The catalog is the one of the file without such methods. -/
theorem fieldSet?_uncallable (hfile : Catalog.ofFile file = .ok c)
    (hnames : (file.types.map Prod.fst).Nodup) (hdecl : (record, decl) ∈ file.types)
    (hrecord : decl.underlying = none)
    (halone : ∀ place name type, decl.Offers place name type →
      Text.lowercase name ≠ Text.lowercase key) :
    Catalog.ofFile file.callable = .ok c ∧
      ∃ fields, c.fieldSet? record = some fields ∧
        ((fields.get? key).isSome = true ↔
          ∃ target ∈ decl.embeds, ∃ inner, c.fieldSet? target = some inner ∧
            (inner.get? key).isSome = true) ∧
        (∀ type, fields.get? key = some type ↔
          ∃ nearest : Candidate file.types record key, nearest.type = type ∧ nearest.path ≠ [] ∧
            ∀ other : Candidate file.types record key, nearest.Nearer other) ∧
        ∀ suggest, (c.validate suggest (.ofPath [.field key]) (.named record)).isValid =
          (fields.get? key).isSome := by
  obtain ⟨w, rfl⟩ := of_ofFile hfile
  have hlookup : file.types.lookup record = some decl := Keyed.lookup_eq_some_of_mem hnames hdecl
  have hcallable : Catalog.ofFile file.callable = .ok (ofTypes file.types) := by
    rw [ofFile_of_wellFormed w.callable, CatalogFile.callable, ofTypes_callable]
  -- both sides of the second part say that there is a candidate
  have hsome : ∀ name ∈ file.types.map Prod.fst,
      ((FieldSet.ofStruct file.types name).get? key).isSome = true ↔
        Nonempty (Candidate file.types name key) := by
    intro name hname
    rw [Option.isSome_iff_ne_none, Ne, FieldSet.get?_ofStruct_eq_none_iff w hname,
      not_isEmpty_iff]
  have htarget : ∀ target ∈ decl.embeds, ∃ inner, file.types.lookup target = some inner ∧
      inner.underlying = none := by
    intro target htarget
    obtain ⟨f, hf, hembedded, hname⟩ := TypeDecl.mem_embeds_iff.mp htarget
    obtain ⟨name, inner, hname', hinner, hstruct⟩ := w.embeds_struct _ hdecl f hf hembedded
    cases hname.symm.trans hname'
    exact ⟨inner, hinner, hstruct⟩
  have hpath : ∀ a : Candidate file.types record key, a.path ≠ [] :=
    Candidate.path_ne_nil hlookup halone
  refine ⟨hcallable, FieldSet.ofStruct file.types record,
    fieldSet?_ofTypes hnames hdecl hrecord, ?_, ?_, ?_⟩
  · have hown : Nonempty (Candidate file.types record key) ↔
        ∃ a : Candidate file.types record key, a.path ≠ [] := by
      constructor
      · rintro ⟨a⟩
        exact ⟨a, hpath a⟩
      · rintro ⟨a, -⟩
        exact ⟨a⟩
    rw [hsome record (List.mem_map_of_mem hdecl), hown, exists_candidate_embeds_iff hlookup]
    refine exists_congr fun target => and_congr_right fun hmem => ?_
    obtain ⟨inner, hinner, hstruct⟩ := htarget target hmem
    have hfields := fieldSet?_ofTypes hnames (mem_of_lookup hinner) hstruct
    rw [← hsome target (declared_of_lookup hinner), hfields]
    simp only [Option.some.injEq, exists_eq_left']
  · intro type
    rw [FieldSet.get?_ofStruct_eq_some_iff w (List.mem_map_of_mem hdecl)]
    refine exists_congr fun nearest => and_congr_right fun _ => ?_
    simp only [hpath nearest, ne_eq, not_false_eq_true, true_and]
  · intro suggest
    have hclosed := closed_ofTypes w hnames
    rw [Bool.eq_iff_iff, isValid_validate_iff, hclosed.mismatches_field,
      settle_record hnames hlookup hrecord]
    simp only [SettledShape.struct.injEq, exists_eq_left']

/-- A page declares a method of one parameter under the name of a field of the record that it
embeds. Templates find the field. -/
theorem fieldSet?_uncallable_page :
    let base : TypeDecl := ⟨none, [⟨"ID", .named "string", false⟩], []⟩
    let page : TypeDecl :=
      ⟨none, [⟨"", .named "Base", true⟩], [⟨"ID", [.named "int"], [.named "string"]⟩]⟩
    let file : CatalogFile := ⟨[("Base", base), ("Page", page)]⟩
    ∃ c, Catalog.ofFile file = .ok c ∧ (file.types.map Prod.fst).Nodup ∧
      ("Page", page) ∈ file.types ∧ page.underlying = none ∧
      (∀ place name type, page.Offers place name type →
        Text.lowercase name ≠ Text.lowercase "ID") ∧
      Catalog.ofFile file.callable = .ok c ∧
      ∃ fields, c.fieldSet? "Page" = some fields ∧ (fields.get? "ID").isSome = true ∧
        (c.validate noSuggestion (.ofPath [.field "ID"]) (.named "Page")).isValid = true := by
  intro base page file
  have hfile : Catalog.ofFile file = .ok (ofTypes file.types) :=
    ofFile_of_isOk (by decide +kernel)
  have hnames : (file.types.map Prod.fst).Nodup := by decide
  have hpage : ("Page", page) ∈ file.types := by decide
  have halone : ∀ place name type, page.Offers place name type →
      Text.lowercase name ≠ Text.lowercase "ID" := TypeDecl.forall_offers_ne (by decide)
  obtain ⟨hcallable, fields, hfields, hsome, -, hvalid⟩ :=
    fieldSet?_uncallable hfile hnames hpage rfl halone
  have hbase : (ofTypes file.types).fieldSet? "Base" = some (.ofStruct file.types "Base") :=
    fieldSet?_ofTypes hnames (List.mem_cons_self) rfl
  have hget : (fields.get? "ID").isSome = true :=
    hsome.mpr ⟨"Base", by decide, _, hbase, by decide⟩
  exact ⟨_, hfile, hnames, hpage, rfl, halone, hcallable, fields, hfields, hget,
    (hvalid noSuggestion).trans hget⟩

/-- It is not so that an exported method that templates cannot call keeps its name from whatever
the embedded records have under it. -/
theorem not_uncallable_hides :
    ¬ ∀ (file : CatalogFile) (c : Catalog) (record : String) (decl : TypeDecl) (m : MethodDecl)
        (fields : FieldSet), Catalog.ofFile file = .ok c → (file.types.map Prod.fst).Nodup →
      (record, decl) ∈ file.types → decl.underlying = none → m ∈ decl.methods →
      isExported m.name = true → m.Uncallable →
      (∀ place name type, decl.Offers place name type →
        Text.lowercase name ≠ Text.lowercase m.name) →
      c.fieldSet? record = some fields → fields.get? m.name = none := by
  intro hides
  let m : MethodDecl := ⟨"ID", [.named "int"], [.named "string"]⟩
  let page : TypeDecl := ⟨none, [⟨"", .named "Base", true⟩], [m]⟩
  let file : CatalogFile :=
    ⟨[("Base", ⟨none, [⟨"ID", .named "string", false⟩], []⟩), ("Page", page)]⟩
  have hfile : Catalog.ofFile file = .ok (ofTypes file.types) :=
    ofFile_of_isOk (by decide +kernel)
  have hnames : (file.types.map Prod.fst).Nodup := by decide
  have hpage : ("Page", page) ∈ file.types := by decide
  have halone : ∀ place name type, page.Offers place name type →
      Text.lowercase name ≠ Text.lowercase m.name := TypeDecl.forall_offers_ne (by decide)
  have hnone := hides file _ "Page" page m _ hfile hnames hpage rfl (List.mem_singleton_self m)
    (by decide) (by decide) halone (fieldSet?_ofTypes hnames hpage rfl)
  revert hnone
  decide

end Catalog

end Fieldwise
