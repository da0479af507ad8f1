import Fieldwise.Proofs.Validation.Termination

/-!
# Adding declarations to a catalog

A catalog file that is accepted may get further declarations. If it is accepted then, too, nothing
changes for what was declared before.

* `FieldSet.ofStruct_of_subset` : a record has the members that it had.
* `Catalog.Extends` : a catalog tells of the names that another one knows what that one tells.
* `Closed.resolve_of_extends`, `Closed.settle_of_extends`, `Closed.mismatches_of_extends` : then so
  it is with types and checks.
* `Catalog.validate_extended` : a file with more declarations has such a catalog.

What is reached from a declared name is declared in the same file: the records that it embeds, since
they must be, and the types that it mentions. The further declarations only allow more levels of
embedded records to be looked for, and those are empty.
-/

set_option autoImplicit false

namespace Fieldwise

namespace FieldSet

open CatalogFile

variable {types : List (String × TypeDecl)} {level : List String} {name record : String}

/-! ## Levels of embedded records -/

theorem mem_nextLevel :
    name ∈ nextLevel types level ↔ ∃ owner ∈ level, name ∈ embedded types owner := by
  simp only [nextLevel, List.mem_eraseDups, List.mem_flatMap, embedded]

/-- What stands on a level is reached in so many steps. -/
theorem leads_of_mem_level {count : Nat} (h : name ∈ (nextLevel types)^[count] [record]) :
    ∃ path, Leads types record path name ∧ path.length = count := by
  induction count generalizing name with
  | zero =>
    rw [Function.iterate_zero, id_eq, List.mem_singleton] at h
    exact ⟨[], h ▸ .here, rfl⟩
  | succ count ih =>
    rw [Function.iterate_succ_apply', mem_nextLevel] at h
    obtain ⟨owner, howner, hname⟩ := h
    obtain ⟨path, hleads, hlength⟩ := ih howner
    obtain ⟨decl, f, hdecl, hf, hembedded, htarget⟩ := mem_embedded.mp hname
    obtain ⟨i, hi⟩ := List.mem_iff_getElem?.mp hf
    exact ⟨path ++ [i], hleads.step hdecl hi hembedded htarget, by simp [hlength]⟩

/-- Behind an empty level there are no further ones. -/
theorem levels_add {count : Nat} (more : Nat) (h : (nextLevel types)^[count] level = []) :
    levels types (count + more) level = levels types count level := by
  induction count generalizing level with
  | zero =>
    rw [Function.iterate_zero, id_eq] at h
    cases more <;> simp [h, levels]
  | succ count ih =>
    rw [Function.iterate_succ_apply] at h
    rw [Nat.add_right_comm]
    cases level with
    | nil => rfl
    | cons name rest => rw [levels, levels, ih h]

/-! ## Further declarations -/

section Subset

variable {base file : CatalogFile}

/-- Declared names embed declared ones. -/
theorem declared_nextLevel (w : base.WellFormed) (h : name ∈ nextLevel base.types level) :
    name ∈ base.types.map Prod.fst := by
  obtain ⟨owner, -, hname⟩ := mem_nextLevel.mp h
  exact declared_of_mem_embedded w.embeds_struct hname

theorem declared_of_mem_levels (w : base.WellFormed) {count : Nat} {reached : List String}
    (hlevel : level ⊆ base.types.map Prod.fst) (h : reached ∈ levels base.types count level) :
    reached ⊆ base.types.map Prod.fst := by
  induction count generalizing level with
  | zero => cases h
  | succ count ih =>
    cases level with
    | nil => cases h
    | cons first rest =>
      rcases List.mem_cons.mp h with rfl | h
      · exact hlevel
      · exact ih (fun _ => declared_nextLevel w) h

variable (hagree : ∀ name ∈ base.types.map Prod.fst,
  file.types.lookup name = base.types.lookup name)

include hagree

theorem levels_of_agree (w : base.WellFormed) (count : Nat)
    (hlevel : level ⊆ base.types.map Prod.fst) :
    levels file.types count level = levels base.types count level := by
  induction count generalizing level with
  | zero => rfl
  | succ count ih =>
    cases level with
    | nil => rfl
    | cons first rest =>
      have hnext : nextLevel file.types (first :: rest) = nextLevel base.types (first :: rest) := by
        rw [nextLevel, nextLevel,
          List.flatMap_congr fun name hname => by rw [hagree name (hlevel hname)]]
      rw [levels, levels, hnext, ih fun _ => declared_nextLevel w]

/-- **A declared record keeps its members**, and their order. -/
theorem ofStruct_of_agree (w : base.WellFormed) (hlength : base.types.length ≤ file.types.length)
    (hrecord : record ∈ base.types.map Prod.fst) :
    ofStruct file.types record = ofStruct base.types record := by
  have hdeclared : [record] ⊆ base.types.map Prod.fst :=
    fun name hname => List.mem_singleton.mp hname ▸ hrecord
  -- no chain of embedded records is as long as the list of declarations
  have hend : (nextLevel base.types)^[base.types.length] [record] = [] := by
    refine List.eq_nil_iff_forall_not_mem.mpr fun name hname => ?_
    obtain ⟨path, hleads, hpath⟩ := leads_of_mem_level hname
    exact absurd hpath (w.length_lt hrecord hleads).ne
  have hlevels : levels file.types file.types.length [record] =
      levels base.types base.types.length [record] := by
    obtain ⟨more, hmore⟩ := Nat.exists_eq_add_of_le hlength
    rw [levels_of_agree hagree w _ hdeclared, hmore, levels_add more hend]
  rw [ofStruct, ofStruct, hlevels]
  congr 1
  refine List.flatMap_congr fun reached hreached => List.flatMap_congr fun name hname => ?_
  rw [hagree name (declared_of_mem_levels w hdeclared hreached hname)]

end Subset

end FieldSet

namespace Catalog

variable {b c : Catalog} {type : TypeExpr}

/-! ## Extended catalogs -/

/-- What `b` knows of a name, `c` knows of it. -/
def Extends (c b : Catalog) : Prop :=
  ∀ name, b.contains name = true → c.entries.lookup name = b.entries.lookup name

namespace Closed

/-- **A known type keeps its shape.** -/
theorem resolve_of_extends (hb : b.Closed) (hc : c.Closed) (h : c.Extends b)
    (hknown : b.Knows type) : c.resolve type = b.resolve type := by
  induction type using hb.wellFounded_follows.induction with
  | h type ih =>
    rw [hc.resolve_eq, hb.resolve_eq]
    cases type with
    | named name =>
      rw [resolveTurn, resolveTurn, h name (hknown name (List.mem_singleton_self name))]
      cases hentry : b.entries.lookup name with
      | none => rfl
      | some entry =>
        cases entry with
        | «alias» underlying =>
          exact ih underlying (.name ⟨name, rfl, hentry⟩) (hb.alias_known name underlying hentry)
        | _ => rfl
    | _ => rfl

/-- Behind pointers, too, a known type keeps its shape. -/
theorem settle_of_extends (hb : b.Closed) (hc : c.Closed) (h : c.Extends b)
    (hknown : b.Knows type) : c.settle type = b.settle type := by
  induction type using hb.wellFounded_pointsTo.induction with
  | h type ih =>
    rw [hc.settle_eq, hb.settle_eq, hb.resolve_of_extends hc h hknown]
    obtain ⟨shape, hshape, hparts⟩ := hb.resolve hknown
    rw [hshape]
    cases shape with
    | pointer target => exact ih target hshape hparts
    | _ => rfl

/-- **The walk reports the same** on a known type. -/
theorem mismatches_of_extends (hb : b.Closed) (hc : c.Closed) (h : c.Extends b)
    (suggest : Suggester) (t : CallTree) : ∀ (path : List Step) (type : TypeExpr), b.Knows type →
      c.mismatches suggest path type t = b.mismatches suggest path type t := by
  induction t with
  | step t ihElement ihMembers =>
    intro path type hknown
    have helement : ∀ e ∈ t.element.toList, ∀ path type, b.Knows type →
        c.mismatches suggest path type e = b.mismatches suggest path type e :=
      fun e he => ihElement e (Option.mem_toList.mp he)
    have hparts := hb.settle hknown
    rw [mismatches_eq, mismatches_eq, hb.settle_of_extends hc h hknown]
    cases hsettle : b.settle type with
    | unknown name => rfl
    | scalar => rfl
    | slice inner =>
      rw [hsettle] at hparts
      dsimp only
      rw [List.flatMap_congr fun e he => helement e he _ inner hparts]
    | map key value =>
      rw [hsettle] at hparts
      dsimp only
      rw [List.flatMap_congr fun e he => by
        rw [helement e he _ key hparts.1, helement e he _ value hparts.2]]
    | struct known =>
      rw [hsettle] at hparts
      dsimp only
      refine if_congr Iff.rfl rfl (List.flatMap_congr fun entry hentry => ?_)
      obtain ⟨key, child⟩ := entry
      rw [entryMismatches, entryMismatches]
      cases hmember : known.get? key with
      | none => rfl
      | some member => exact ihMembers _ hentry _ member (hparts key member hmember)

end Closed

/-! ## Accepted files -/

variable {base file : CatalogFile}

/-- The catalog of a file with further declarations extends that of the file without them. -/
theorem extends_of_subset (w : base.WellFormed) (hbaseNames : (base.types.map Prod.fst).Nodup)
    (hnames : (file.types.map Prod.fst).Nodup) (hsubset : base.types ⊆ file.types)
    (hbuiltin : ∀ entry ∈ file.types, entry.1 ∉ builtinScalars) :
    (ofTypes file.types).Extends (ofTypes base.types) := by
  have hagree : ∀ name ∈ base.types.map Prod.fst,
      file.types.lookup name = base.types.lookup name := by
    intro name hname
    obtain ⟨⟨_, decl⟩, hdecl, rfl⟩ := List.mem_map.mp hname
    rw [Keyed.lookup_eq_some_of_mem hbaseNames hdecl,
      Keyed.lookup_eq_some_of_mem hnames (hsubset hdecl)]
  have hlength : base.types.length ≤ file.types.length :=
    ((List.Nodup.of_map _ hbaseNames).subperm hsubset).length_le
  intro name hknown
  rw [lookup_ofTypes hnames, lookup_ofTypes hbaseNames]
  by_cases hdeclared : name ∈ base.types.map Prod.fst
  · rw [hagree name hdeclared]
    congr 2
    funext decl
    rw [declaredEntry, declaredEntry, FieldSet.ofStruct_of_agree hagree w hlength hdeclared]
  · -- a name that is known and not declared is built in, and no file declares those
    have hscalar : name ∈ builtinScalars :=
      ((contains_ofTypes hbaseNames).mp hknown).resolve_right hdeclared
    have hnew : name ∉ file.types.map Prod.fst := by
      intro hname
      obtain ⟨entry, hentry, rfl⟩ := List.mem_map.mp hname
      exact hbuiltin entry hentry hscalar
    rw [Keyed.lookup_eq_none_iff_notMem.mpr hdeclared, Keyed.lookup_eq_none_iff_notMem.mpr hnew]
    rfl

/-- **Further declarations change nothing for the ones before.** Let a file hold every declaration
of another one, unchanged, and any others, and let both be accepted. Each record that is declared
in both has the same field set in both catalogs. A type whose names are built in or declared in the
smaller file has the same shape in both, and every tree has the same verdict against it. -/
theorem validate_extended (hbase : Catalog.ofFile base = .ok b) (hfile : Catalog.ofFile file = .ok c)
    (hbaseNames : (base.types.map Prod.fst).Nodup) (hnames : (file.types.map Prod.fst).Nodup)
    (hsubset : base.types ⊆ file.types) :
    (∀ record decl, (record, decl) ∈ base.types → decl.underlying = none →
      ∃ fields, b.fieldSet? record = some fields ∧ c.fieldSet? record = some fields) ∧
    ∀ type : TypeExpr,
      (∀ name ∈ type.names, name ∈ builtinScalars ∨ name ∈ base.types.map Prod.fst) →
      (∃ shape, b.resolve type = some shape ∧ c.resolve type = some shape) ∧
        ∀ (suggest : Suggester) (t : CallTree),
          c.validate suggest t type = b.validate suggest t type := by
  obtain ⟨wbase, rfl⟩ := of_ofFile hbase
  obtain ⟨wfile, rfl⟩ := of_ofFile hfile
  have hextends := extends_of_subset wbase hbaseNames hnames hsubset wfile.not_builtin
  have hb := closed_ofTypes wbase hbaseNames
  have hc := closed_ofTypes wfile hnames
  refine ⟨fun record decl hdecl hrecord => ?_, fun type htype => ?_⟩
  · have hfields := fieldSet?_ofTypes hbaseNames hdecl hrecord
    have hknown : (ofTypes base.types).contains record = true :=
      (contains_ofTypes hbaseNames).mpr (.inr (List.mem_map_of_mem hdecl))
    refine ⟨_, hfields, ?_⟩
    rwa [fieldSet?, hextends record hknown, ← fieldSet?]
  · have hknown : (ofTypes base.types).Knows type := fun name hname =>
      (contains_ofTypes hbaseNames).mpr (htype name hname)
    obtain ⟨shape, hshape, -⟩ := hb.resolve hknown
    refine ⟨⟨shape, hshape, (hb.resolve_of_extends hc hextends hknown).trans hshape⟩, ?_⟩
    intro suggest t
    rw [validate_eq, validate_eq, hb.mismatches_of_extends hc hextends suggest t [] type hknown]

/-- A node that embeds another record and points to itself, behind another name, in a file and in
one that declares before it a record that embeds it and, behind it, a list of such records. -/
theorem validate_extended_nodes :
    let node : TypeDecl :=
      ⟨none, [⟨"", .pointer (.named "Base"), true⟩, ⟨"Next", .named "Link", false⟩], []⟩
    let base : CatalogFile :=
      ⟨[("Base", ⟨none, [⟨"ID", .named "string", false⟩], []⟩),
        ("Link", ⟨some (.pointer (.named "Node")), [], []⟩), ("Node", node)]⟩
    let file : CatalogFile :=
      ⟨("App", ⟨none, [⟨"", .named "Node", true⟩], [⟨"ID", [], [.named "int"]⟩]⟩) :: base.types ++
        [("Pages", ⟨some (.slice (.named "App")), [], []⟩)]⟩
    ∃ b c, Catalog.ofFile base = .ok b ∧ Catalog.ofFile file = .ok c ∧
      (base.types.map Prod.fst).Nodup ∧ (file.types.map Prod.fst).Nodup ∧
      base.types ⊆ file.types ∧
      (∃ fields, b.fieldSet? "Node" = some fields ∧ c.fieldSet? "Node" = some fields) ∧
      ∀ (suggest : Suggester) (t : CallTree),
        c.validate suggest t (.slice (.named "Link")) =
          b.validate suggest t (.slice (.named "Link")) := by
  intro node base file
  have hbase : Catalog.ofFile base = .ok (ofTypes base.types) :=
    ofFile_of_isOk (by decide +kernel)
  have hfile : Catalog.ofFile file = .ok (ofTypes file.types) :=
    ofFile_of_isOk (by decide +kernel)
  have hbaseNames : (base.types.map Prod.fst).Nodup := by decide
  have hnames : (file.types.map Prod.fst).Nodup := by decide
  have hsubset : base.types ⊆ file.types := fun entry hentry =>
    List.mem_cons_of_mem _ (List.mem_append_left _ hentry)
  obtain ⟨hrecords, htypes⟩ := validate_extended hbase hfile hbaseNames hnames hsubset
  obtain ⟨-, hverdict⟩ := htypes (.slice (.named "Link")) (by decide)
  exact ⟨_, _, hbase, hfile, hbaseNames, hnames, hsubset,
    hrecords "Node" node (by decide) rfl, hverdict⟩

end Catalog

end Fieldwise
