import Fieldwise.Proofs.CallTree.Concatenation
import Fieldwise.Proofs.Catalog.Following

/-!
# One mismatch for a branch, in order

Where no type is a map, the walk down a call tree never comes to a node twice, and it goes no
further below a node that it reports.

* `Precedes` : two paths part at two fields of one node, and the first goes on to the field that
  comes first. `Precedes.lex`, `Precedes.not_prefix` : it is then before the other path step by
  step, and neither node lies at or below the other.
* `Reported` : mismatches at nodes of a tree, each of which precedes those behind it.
* `Catalog.reported_mismatches` : the walk reports so, whatever the path that it starts behind.
* `Catalog.validate_in_order` : the mismatches of a template.

That a field set, or another name, leads to no map is read off the declarations of the file, in the
same way as that it leads to no unknown name.
-/

set_option autoImplicit false

namespace Fieldwise

/-! ## Order of paths -/

/-- Fields come in the order of their keys. Elements and fields are not compared. -/
inductive Step.Before : Step → Step → Prop
  | field {k k' : String} (h : k < k') : Before (.field k) (.field k')

/-- Behind common steps both paths go on to a field, and the key of the first one is less. -/
def Precedes (p q : List Step) : Prop :=
  ∃ (common : List Step) (k k' : String), k < k' ∧ common ++ [.field k] <+: p ∧
    common ++ [.field k'] <+: q

namespace Precedes

variable {p q : List Step}

theorem of_lt {k k' : String} (h : k < k') (p q : List Step) :
    Precedes (.field k :: p) (.field k' :: q) :=
  ⟨[], k, k', h, List.prefix_append [_] p, List.prefix_append [_] q⟩

theorem cons (step : Step) (h : Precedes p q) : Precedes (step :: p) (step :: q) := by
  obtain ⟨common, k, k', hlt, hp, hq⟩ := h
  exact ⟨step :: common, k, k', hlt, (List.prefix_cons_inj step).mpr hp,
    (List.prefix_cons_inj step).mpr hq⟩

/-- A path is before those that it precedes, compared step by step. -/
theorem lex (h : Precedes p q) : List.Lex Step.Before p q := by
  obtain ⟨common, k, k', hlt, ⟨p, rfl⟩, q, rfl⟩ := h
  induction common with
  | nil => exact .rel (.field hlt)
  | cons step common ih => exact .cons ih

/-- Neither of two paths goes on where the other ends. -/
theorem not_prefix (h : Precedes p q) : ¬ p <+: q ∧ ¬ q <+: p := by
  obtain ⟨common, k, k', hlt, hp, hq⟩ := h
  have hne {r : List Step} (hk : common ++ [.field k] <+: r) (hk' : common ++ [.field k'] <+: r) :
      False := by
    have hsame := List.prefix_of_prefix_length_le hk hk' (by simp)
    have hkeys : k = k' := by simpa using (List.prefix_append_right_inj common).mp hsame
    exact String.lt_irrefl k (hkeys ▸ hlt)
  exact ⟨fun hpq => hne (hp.trans hpq) hq, fun hqp => hne hp (hq.trans hqp)⟩

end Precedes

/-! ## Reports in order -/

/-- The mismatches are at the ends of `places`, behind `path`. These are nodes of the tree, and each
precedes those that come after it. -/
structure Reported (t : CallTree) (path : List Step) (ms : List Mismatch)
    (places : List (List Step)) : Prop where
  breadcrumbs : ms.map Mismatch.breadcrumb = places.map fun p => renderPath (path ++ p)
  hasNode : ∀ p ∈ places, t.HasNode p
  precedes : places.Pairwise Precedes

namespace Reported

variable {t e : CallTree} {path : List Step} {ms : List Mismatch} {places : List (List Step)}

theorem nil (t : CallTree) (path : List Step) : Reported t path [] [] :=
  ⟨rfl, nofun, .nil⟩

theorem single {m : Mismatch} (t : CallTree) (h : m.breadcrumb = renderPath path) :
    Reported t path [m] [[]] where
  breadcrumbs := by rw [List.map_singleton, List.map_singleton, List.append_nil, h]
  hasNode := List.forall_mem_singleton.mpr (.root t)
  precedes := List.pairwise_singleton _ _

theorem element (he : t.element = some e) (h : Reported e (path ++ [.element]) ms places) :
    Reported t path ms (places.map (.element :: ·)) where
  breadcrumbs := by
    rw [h.breadcrumbs, List.map_map]
    simp
  hasNode := List.forall_mem_map.mpr fun p hp => .element he (h.hasNode p hp)
  precedes := List.pairwise_map.mpr (h.precedes.imp fun hpq => hpq.cons _)

/-- What is reported field by field is in order if the fields are. -/
theorem fields {report : String × CallTree → List Mismatch}
    {places : String × CallTree → List (List Step)} (hkeys : Keyed.Ordered t.members)
    (h : ∀ entry ∈ t.members,
      Reported entry.2 (path ++ [.field entry.1]) (report entry) (places entry)) :
    Reported t path (t.members.flatMap report)
      (t.members.flatMap fun entry => (places entry).map (.field entry.1 :: ·)) where
  breadcrumbs := by
    rw [List.map_flatMap, List.map_flatMap]
    refine List.flatMap_congr fun entry hentry => ?_
    rw [(h entry hentry).breadcrumbs, List.map_map]
    simp
  hasNode := by
    intro p hp
    obtain ⟨⟨key, child⟩, hentry, hp⟩ := List.mem_flatMap.mp hp
    obtain ⟨q, hq, rfl⟩ := List.mem_map.mp hp
    exact .field hentry ((h _ hentry).hasNode q hq)
  precedes := by
    refine List.pairwise_flatMap.mpr ⟨fun entry hentry => ?_, hkeys.imp fun {a b} hlt => ?_⟩
    · exact List.pairwise_map.mpr ((h entry hentry).precedes.imp fun hpq => hpq.cons _)
    · intro p hp q hq
      obtain ⟨p, -, rfl⟩ := List.mem_map.mp hp
      obtain ⟨q, -, rfl⟩ := List.mem_map.mp hq
      exact .of_lt hlt p q

end Reported

/-! ## Types without maps -/

/-- No part of the type expression is a map. -/
def TypeExpr.MapFree : TypeExpr → Prop
  | .named _ => True
  | .pointer target => target.MapFree
  | .slice element | .array _ element => element.MapFree
  | .map _ _ => False

theorem TypeExpr.MapFree.stripPointers : ∀ type : TypeExpr, type.MapFree →
    type.stripPointers.MapFree
  | .pointer target, h => MapFree.stripPointers target h
  | .named _, h | .slice _, h | .array _ _, h | .map _ _, h => h

/-- No type expression of the file has a map in it. -/
def CatalogFile.MapFree (file : CatalogFile) : Prop :=
  ∀ entry ∈ file.types, ∀ type ∈ entry.2.mentioned, type.MapFree

/-- No member has a map in its type. -/
def FieldSet.MapFree (fields : FieldSet) : Prop :=
  ∀ key type, fields.get? key = some type → type.MapFree

/-- The shape is no map, and no type in it has one. -/
def SettledShape.MapFree : SettledShape → Prop
  | .unknown _ | .scalar => True
  | .struct fields => fields.MapFree
  | .slice element => element.MapFree
  | .map _ _ => False

namespace Catalog

/-- No other name stands for a type with a map in it, and no record has such a member. -/
structure MapFree (c : Catalog) : Prop where
  underlying : ∀ name underlying, c.entries.lookup name = some (.alias underlying) →
    underlying.MapFree
  members : ∀ name fields, c.entries.lookup name = some (.struct fields) → fields.MapFree

theorem mapFree_ofTypes {file : CatalogFile} (hnames : (file.types.map Prod.fst).Nodup)
    (h : file.MapFree) : (ofTypes file.types).MapFree where
  underlying := by
    intro name underlying hentry
    obtain ⟨decl, hdecl, hunderlying⟩ := declared_of_alias hnames hentry
    refine h _ (CatalogFile.mem_of_lookup hdecl) underlying ?_
    simp [TypeDecl.mentioned, hunderlying]
  members := by
    intro name fields hentry key type hget
    rw [declared_of_struct hnames hentry] at hget
    obtain ⟨entry, hmem, htype⟩ := mentioned_of_member hget
    exact h entry hmem type htype

variable {c : Catalog} {type : TypeExpr}

theorem MapFree.settleWithin (hc : c.MapFree) : ∀ (fuel : Nat) (type : TypeExpr),
    type.MapFree → (c.settleWithin fuel type).MapFree
  | fuel, type, htype => by
    have hstripped := TypeExpr.MapFree.stripPointers type htype
    rw [settleWithin_eq]
    cases htarget : type.stripPointers with
    | pointer target => trivial
    | slice element => rwa [htarget] at hstripped
    | array length element => rwa [htarget] at hstripped
    | map key value => rwa [htarget] at hstripped
    | named name =>
      dsimp only
      cases hentry : c.entries.lookup name with
      | none => trivial
      | some entry =>
        cases entry with
        | scalar => trivial
        | struct fields => exact hc.members name fields hentry
        | «alias» underlying =>
          cases fuel with
          | zero => trivial
          | succ fuel => exact hc.settleWithin fuel underlying (hc.underlying name underlying hentry)

theorem MapFree.settle (hc : c.MapFree) (htype : type.MapFree) : (c.settle type).MapFree :=
  hc.settleWithin _ type htype

/-! ## The walk -/

/-- **The walk reports in order**, one mismatch for a branch at most. -/
theorem reported_mismatches (hc : c.MapFree) (suggest : Suggester) (t : CallTree) :
    ∀ (path : List Step) (type : TypeExpr), t.Ordered → type.MapFree →
      ∃ places, Reported t path (c.mismatches suggest path type t) places := by
  induction t with
  | step t ihElement ihMembers =>
    intro path type hordered htype
    obtain ⟨hElement, hKeys, hMembers⟩ := CallTree.ordered_iff.mp hordered
    have hshape := hc.settle htype
    rw [mismatches_eq]
    cases hsettle : c.settle type with
    | unknown name => exact ⟨_, .single t rfl⟩
    | map key value => rw [hsettle] at hshape; exact hshape.elim
    | scalar =>
      dsimp only
      split
      · exact ⟨_, .nil t path⟩
      · exact ⟨_, .single t rfl⟩
    | slice inner =>
      rw [hsettle] at hshape
      dsimp only
      split
      · cases he : t.element with
        | none => exact ⟨_, .nil t path⟩
        | some e =>
          obtain ⟨places, hplaces⟩ := ihElement e he (path ++ [.element]) inner (hElement e he) hshape
          refine ⟨places.map _, .element he ?_⟩
          simpa using hplaces
      · exact ⟨_, .single t rfl⟩
    | struct known =>
      rw [hsettle] at hshape
      dsimp only
      split
      · exact ⟨_, .single t rfl⟩
      have hentries : ∀ entry ∈ t.members, ∃ places, Reported entry.2 (path ++ [.field entry.1])
          (c.entryMismatches suggest path known entry) places := by
        rintro ⟨key, child⟩ hentry
        rw [entryMismatches]
        split
        · next member hmember =>
          exact ihMembers _ hentry _ member (hMembers _ hentry) (hshape key member hmember)
        · exact ⟨_, .single child rfl⟩
      choose! places hplaces using hentries
      exact ⟨_, .fields hKeys hplaces⟩

end Catalog

theorem CallTree.ordered_ofSource {source : String} {t : CallTree}
    (h : CallTree.ofSource source = .ok t) : t.Ordered := by
  obtain ⟨template, -, hnodes⟩ := ofSource_eq_ok_iff_nodesTree.mp h
  exact (nodesTree_adds _ hnodes).ordered ordered_empty

namespace Catalog

/-- **One mismatch for a branch, in order.** Without maps in the catalog and in the type, the
mismatches of a template are at nodes of its call tree: they come in the order of the paths to these
nodes, compared step by step, and none is at or below the node of another one. -/
theorem validate_in_order {file : CatalogFile} {c : Catalog} {type : TypeExpr} {source : String}
    {t : CallTree} (hfile : Catalog.ofFile file = .ok c)
    (hnames : (file.types.map Prod.fst).Nodup) (hfree : file.MapFree) (htype : type.MapFree)
    (ht : CallTree.ofSource source = .ok t) (suggest : Suggester) :
    ∃ places : List (List Step),
      (c.validate suggest t type).mismatches.map Mismatch.breadcrumb = places.map renderPath ∧
      (∀ p ∈ places, t.HasNode p) ∧ places.Pairwise (List.Lex Step.Before) ∧
      places.Pairwise fun p q => ¬ p <+: q ∧ ¬ q <+: p := by
  obtain ⟨-, rfl⟩ := of_ofFile hfile
  obtain ⟨places, hplaces⟩ := reported_mismatches (mapFree_ofTypes hnames hfree) suggest t [] type
    (CallTree.ordered_ofSource ht) htype
  rw [mismatches_validate]
  exact ⟨places, hplaces.breadcrumbs, hplaces.hasNode, hplaces.precedes.imp Precedes.lex,
    hplaces.precedes.imp Precedes.not_prefix⟩

/-- Pages hold items behind another name, and a page behind pointers. Two fields of an item are
wrong, and below the one that is missing nothing more is reported. -/
theorem validate_in_order_pages :
    let file : CatalogFile :=
      ⟨[("Item", ⟨none, [⟨"ID", .named "string", false⟩], []⟩),
        ("Items", ⟨some (.slice (.pointer (.named "Item"))), [], []⟩),
        ("Page", ⟨none, [⟨"Items", .named "Items", false⟩, ⟨"Next", .pointer (.named "Page"), false⟩,
          ⟨"Title", .named "string", false⟩], []⟩)]⟩
    let source := "\x7b\x7b.Title.Text\x7d\x7d\x7b\x7b.Next.Previous.Title\x7d\x7d" ++
      "\x7b\x7brange .Items\x7d\x7d\x7b\x7b.Name.First\x7d\x7d\x7b\x7b.ID.Part\x7d\x7d\x7b\x7bend\x7d\x7d"
    ∃ c t, Catalog.ofFile file = .ok c ∧ (file.types.map Prod.fst).Nodup ∧ file.MapFree ∧
      CallTree.ofSource source = .ok t ∧ ∃ places : List (List Step),
        places.map renderPath = [".items[].id", ".items[].name", ".next.previous", ".title"] ∧
        (c.validate noSuggestion t (.named "Page")).mismatches.map Mismatch.breadcrumb =
          places.map renderPath ∧
        (∀ p ∈ places, t.HasNode p) ∧ places.Pairwise (List.Lex Step.Before) ∧
        places.Pairwise fun p q => ¬ p <+: q ∧ ¬ q <+: p := by
  intro file source
  have hfile : Catalog.ofFile file = .ok (ofTypes file.types) :=
    ofFile_of_isOk (by decide +kernel)
  have hnames : (file.types.map Prod.fst).Nodup := by decide
  have hfree : file.MapFree := by
    simp only [file, CatalogFile.MapFree, TypeDecl.mentioned, List.forall_mem_cons, List.map_cons]
    simp [TypeExpr.MapFree]
  obtain ⟨t, ht, hany⟩ := exists_ok_of_any (x := CallTree.ofSource source) (p := fun t =>
    ((ofTypes file.types).validate noSuggestion t (.named "Page")).mismatches.map
      Mismatch.breadcrumb == [".items[].id", ".items[].name", ".next.previous", ".title"])
    (by decide +kernel)
  have hpage : TypeExpr.MapFree (.named "Page") := trivial
  obtain ⟨places, hbreadcrumbs, hplaces⟩ :=
    validate_in_order hfile hnames hfree hpage ht noSuggestion
  exact ⟨_, t, hfile, hnames, hfree, ht, places, hbreadcrumbs ▸ beq_iff_eq.mp hany, hbreadcrumbs,
    hplaces⟩

end Catalog

end Fieldwise
