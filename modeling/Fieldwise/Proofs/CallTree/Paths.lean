import Fieldwise.Proofs.CallTree.Structure

/-!
# The paths of a call tree

* `CallTree.HasNode` : a tree has a node at the end of a path, and then, by `HasNode.of_prefix`, at
  every place on the way.
* `hasNode_merge`, `hasNode_under`, `hasNode_ofPath` : the nodes of a union, of a tree hung below
  a path, and of a single path.
* `ordered_merge`, `ordered_under` : the fields stay in order.
* `isSome_get?_iff`, `hasNode_of_get?` : in an ordered tree a path can be read exactly when it has a
  node, and what is read has the nodes that continue the path.
* `touch_eq_merge` : growing a tree along a path unites it with the path.
* `CallTree.Adds` : a tree is another one with some paths added.
-/

set_option autoImplicit false

namespace Fieldwise

namespace CallTree

/-! ## Nodes -/

/-- The tree has a node at the end of the path. -/
inductive HasNode : CallTree → List Step → Prop
  | root (t : CallTree) : HasNode t []
  | element {t e : CallTree} {path : List Step} (he : t.element = some e) (h : HasNode e path) :
    HasNode t (.element :: path)
  | field {t child : CallTree} {key : String} {path : List Step} (hm : (key, child) ∈ t.members)
    (h : HasNode child path) : HasNode t (.field key :: path)

theorem hasNode_element {t : CallTree} {path : List Step} :
    t.HasNode (.element :: path) ↔ ∃ e, t.element = some e ∧ e.HasNode path := by
  constructor
  · rintro (_ | ⟨he, h⟩)
    exact ⟨_, he, h⟩
  · rintro ⟨e, he, h⟩
    exact .element he h

theorem hasNode_field {t : CallTree} {key : String} {path : List Step} :
    t.HasNode (.field key :: path) ↔ ∃ entry ∈ t.members, entry.1 = key ∧ entry.2.HasNode path := by
  constructor
  · rintro (_ | _ | ⟨hm, h⟩)
    exact ⟨_, hm, rfl, h⟩
  · rintro ⟨⟨_, child⟩, hm, rfl, h⟩
    exact .field hm h

theorem hasNode_empty {path : List Step} : empty.HasNode path ↔ path = [] := by
  obtain _ | ⟨_ | key, path⟩ := path
  · simp [HasNode.root]
  · simp [hasNode_element]
  · simp [hasNode_field]

/-- A tree has all the nodes on the way to a node. -/
theorem HasNode.of_prefix {t : CallTree} {p q : List Step} (h : t.HasNode q) (hp : p <+: q) :
    t.HasNode p := by
  induction h generalizing p with
  | root t =>
    rw [List.prefix_nil.mp hp]
    exact .root t
  | element he _ ih =>
    rcases List.prefix_cons_iff.mp hp with rfl | ⟨r, rfl, hr⟩
    · exact .root _
    · exact .element he (ih hr)
  | field hm _ ih =>
    rcases List.prefix_cons_iff.mp hp with rfl | ⟨r, rfl, hr⟩
    · exact .root _
    · exact .field hm (ih hr)

/-- **The union of two trees has the nodes of both** and no others. -/
theorem hasNode_merge (path : List Step) :
    ∀ s t : CallTree, (s.merge t).HasNode path ↔ s.HasNode path ∨ t.HasNode path := by
  induction path with
  | nil => exact fun s t => by simp [HasNode.root]
  | cons step path ih =>
    intro s t
    cases step with
    | element =>
      simp only [hasNode_element, element_merge]
      cases s.element <;> cases t.element <;> simp [mergeElement, ih]
    | field key =>
      simp only [hasNode_field, members_merge]
      exact exists_mem_mergeEntries _ _ fun entry _ v => by
        rw [ih, ← and_or_left]

/-- A tree below a path has the nodes on the path, and behind it those of the tree. -/
theorem hasNode_under {t : CallTree} (q : List Step) :
    ∀ p, (t.under q).HasNode p ↔ p <+: q ∨ ∃ r, p = q ++ r ∧ t.HasNode r := by
  induction q with
  | nil =>
    intro p
    simp only [under, List.prefix_nil, List.nil_append, exists_eq_left']
    exact ⟨.inr, fun h => h.elim (fun hp => hp ▸ .root t) id⟩
  | cons step q ih =>
    intro p
    cases p with
    | nil => simp [HasNode.root]
    | cons first p =>
      rw [List.cons_prefix_cons]
      cases step <;> cases first <;>
        simp [under, hasNode_element, hasNode_field, ih, and_or_left, and_assoc, @eq_comm String]

theorem ofPath_eq_under (q : List Step) : ofPath q = empty.under q := by
  induction q with
  | nil => rfl
  | cons step q ih => cases step <;> simp only [ofPath_element, ofPath_field, under, ih]

/-- **To grow a tree along a path is to unite it with the tree of the path.** -/
theorem touch_eq_merge (path : List Step) :
    ∀ t : CallTree, t.touch path = t.merge (ofPath path) := by
  induction path with
  | nil =>
    rintro ⟨_, _⟩
    rfl
  | cons step path ih =>
    rintro ⟨e, fs⟩
    cases step with
    | element =>
      rw [ofPath_element]
      cases e with
      | none => rfl
      | some e => exact congrArg (fun e => node (some e) fs) (ih e)
    | field key =>
      rw [ofPath_field]
      refine congrArg (fun f => node e (some (Keyed.update key f (fs.getD []))))
        (funext fun child => ?_)
      cases child with
      | none => rfl
      | some c => exact ih c

theorem hasNode_ofPath {p q : List Step} : (ofPath q).HasNode p ↔ p <+: q := by
  rw [ofPath_eq_under, hasNode_under]
  simp only [hasNode_empty, exists_eq_right, List.append_nil, or_iff_left_iff_imp]
  rintro rfl
  exact List.prefix_refl p

/-! ## Order -/

theorem orderedEntries_iff (entries : List (String × CallTree)) :
    OrderedEntries entries ↔ ∀ entry ∈ entries, entry.2.Ordered := by
  induction entries with
  | nil => simp [OrderedEntries]
  | cons entry rest ih =>
    obtain ⟨key, t⟩ := entry
    simp [OrderedEntries, OrderedEntry, ih]

theorem ordered_iff {t : CallTree} :
    t.Ordered ↔ (∀ e, t.element = some e → e.Ordered) ∧ Keyed.Ordered t.members ∧
      ∀ entry ∈ t.members, entry.2.Ordered := by
  obtain ⟨_ | e, _ | fs⟩ := t <;>
    simp [Ordered, OrderedElement, OrderedFields, orderedEntries_iff, Keyed.Ordered]

theorem ordered_empty : empty.Ordered :=
  ordered_iff.mpr ⟨by simp, .nil, by simp⟩

/-- The fields of a union stay in order. -/
theorem keyed_ordered_mergeEntries (fs : List (String × CallTree)) :
    ∀ s, Keyed.Ordered s → Keyed.Ordered (mergeEntries s fs) := by
  induction fs with
  | nil => exact fun s h => by simpa [mergeEntries] using h
  | cons entry rest ih =>
    obtain ⟨key, t⟩ := entry
    exact fun s h => ih _ (Keyed.ordered_update _ _ h)

/-- What holds of all fields of two trees holds of those of their union, when it passes to
unions. -/
theorem forall_mem_mergeEntries_of {P : CallTree → Prop} :
    ∀ (fs s : List (String × CallTree)),
      (∀ entry ∈ fs, ∀ t, P t → P (t.merge entry.2)) → (∀ entry ∈ fs, P entry.2) →
      (∀ entry ∈ s, P entry.2) → ∀ entry ∈ mergeEntries s fs, P entry.2
  | [], _, _, _, hs => by simpa [mergeEntries] using hs
  | (key, t) :: rest, s, h, hfs, hs => by
    obtain ⟨hentry, hrest⟩ := List.forall_mem_cons.mp h
    obtain ⟨ht, hfs⟩ := List.forall_mem_cons.mp hfs
    refine forall_mem_mergeEntries_of rest _ hrest hfs fun entry hmem => ?_
    rcases Keyed.mem_of_mem_update s hmem with hmem | rfl | ⟨v, hv, rfl⟩
    · exact hs entry hmem
    · exact ht
    · exact hentry v (hs _ hv)

/-- **The union of two ordered trees is ordered.** -/
theorem ordered_merge (t : CallTree) : ∀ s : CallTree, s.Ordered → t.Ordered →
    (s.merge t).Ordered := by
  induction t with
  | step t ihElement ihMembers =>
    intro s hs ht
    obtain ⟨hsElement, hsKeys, hsMembers⟩ := ordered_iff.mp hs
    obtain ⟨htElement, -, htMembers⟩ := ordered_iff.mp ht
    refine ordered_iff.mpr ⟨fun e he => ?_, ?_, ?_⟩
    · rw [element_merge, mergeElement_eq_some] at he
      rcases he with ⟨he, -⟩ | ⟨-, he⟩ | ⟨a, b, ha, hb, rfl⟩
      · exact hsElement e he
      · exact htElement e he
      · exact ihElement b hb a (hsElement a ha) (htElement b hb)
    · rw [members_merge]
      exact keyed_ordered_mergeEntries _ _ hsKeys
    · rw [members_merge]
      exact forall_mem_mergeEntries_of _ _
        (fun entry hentry v hv => ihMembers entry hentry v hv (htMembers entry hentry)) htMembers
        hsMembers

theorem ordered_under {t : CallTree} (h : t.Ordered) (q : List Step) : (t.under q).Ordered := by
  induction q with
  | nil => exact h
  | cons step q ih =>
    cases step with
    | element => exact ordered_iff.mpr ⟨by simp [under, ih], .nil, by simp [under]⟩
    | field key =>
      exact ordered_iff.mpr ⟨by simp [under], List.pairwise_singleton _ _, by simp [under, ih]⟩

/-! ## Reading -/

theorem Ordered.child {t c : CallTree} {step : Step} (h : t.Ordered)
    (hc : t.child? step = some c) : c.Ordered := by
  obtain ⟨hElement, hKeys, hMembers⟩ := ordered_iff.mp h
  cases step with
  | element => exact hElement c hc
  | field key => exact hMembers _ ((Keyed.lookup_eq_some_iff_mem hKeys).mp hc)

/-- An ordered tree has a node behind a step when the tree below the step has it. -/
theorem hasNode_cons {t : CallTree} (h : t.Ordered) {step : Step} {path : List Step} :
    t.HasNode (step :: path) ↔ ∃ c, t.child? step = some c ∧ c.HasNode path := by
  cases step with
  | element => exact hasNode_element
  | field key =>
    simp only [hasNode_field, child?_field, Keyed.lookup_eq_some_iff_mem (ordered_iff.mp h).2.1]
    constructor
    · rintro ⟨⟨_, c⟩, hmem, rfl, hc⟩
      exact ⟨c, hmem, hc⟩
    · rintro ⟨c, hmem, hc⟩
      exact ⟨_, hmem, rfl, hc⟩

/-- In an ordered tree a path can be read exactly when the tree has a node there. -/
theorem isSome_get?_iff (path : List Step) :
    ∀ {t : CallTree}, t.Ordered → ((t.get? path).isSome = true ↔ t.HasNode path) := by
  induction path with
  | nil => exact fun _ => by simp [get?, HasNode.root]
  | cons step path ih =>
    intro t h
    rw [get?_cons, hasNode_cons h]
    cases hc : t.child? step with
    | none => simp
    | some c => simpa using ih (h.child hc)

/-- The tree that is read at a path has the nodes that continue the path. -/
theorem hasNode_of_get? (path : List Step) : ∀ {t u : CallTree}, t.Ordered →
    t.get? path = some u → ∀ rest, u.HasNode rest ↔ t.HasNode (path ++ rest) := by
  induction path with
  | nil =>
    intro t u _ h rest
    obtain rfl : t = u := Option.some.inj h
    rfl
  | cons step path ih =>
    intro t u ht h rest
    rw [get?_cons, Option.bind_eq_some_iff] at h
    obtain ⟨c, hc, hu⟩ := h
    rw [ih (ht.child hc) hu, List.cons_append, hasNode_cons ht, hc]
    simp

/-! ## Adding paths -/

/-- `t'` is `t` with some paths, and all places on the way to them, added. -/
structure Adds (t : CallTree) (paths : List (List Step)) (t' : CallTree) : Prop where
  ordered : t.Ordered → t'.Ordered
  hasNode : ∀ p, t'.HasNode p ↔ t.HasNode p ∨ ∃ q ∈ paths, p <+: q

namespace Adds

theorem refl (t : CallTree) : t.Adds [] t :=
  ⟨id, by simp⟩

theorem trans {t t' t'' : CallTree} {ps qs : List (List Step)} (h : t.Adds ps t')
    (h' : t'.Adds qs t'') : t.Adds (ps ++ qs) t'' := by
  refine ⟨h'.ordered ∘ h.ordered, fun p => ?_⟩
  rw [h'.hasNode, h.hasNode]
  simp only [List.mem_append, or_and_right, exists_or, or_assoc]

/-- The nodes of a tree that is nothing but its paths. -/
theorem hasNode_iff {t : CallTree} {ps : List (List Step)} (h : empty.Adds ps t)
    (p : List Step) : t.HasNode p ↔ p = [] ∨ ∃ q ∈ ps, p <+: q := by
  rw [h.hasNode, hasNode_empty]

/-- Uniting with a tree adds its paths. -/
theorem merge {s : CallTree} {ps : List (List Step)} (h : empty.Adds ps s) (t : CallTree) :
    t.Adds ps (t.merge s) := by
  refine ⟨fun ht => ordered_merge s t ht (h.ordered ordered_empty), fun p => ?_⟩
  rw [hasNode_merge, h.hasNode_iff, ← or_assoc]
  have hroot : p = [] → t.HasNode p := by
    rintro rfl
    exact .root t
  rw [or_iff_left_of_imp hroot]

/-- A tree below a path has the path and its own paths behind it. -/
theorem under {t : CallTree} {ps : List (List Step)} (h : empty.Adds ps t) (q : List Step) :
    empty.Adds (q :: ps.map (q ++ ·)) (t.under q) := by
  refine ⟨fun _ => ordered_under (h.ordered ordered_empty) q, fun p => ?_⟩
  rw [hasNode_under, hasNode_empty]
  constructor
  · rintro (hp | ⟨r, rfl, hr⟩)
    · exact .inr ⟨q, List.mem_cons_self, hp⟩
    rcases (h.hasNode_iff r).mp hr with rfl | ⟨u, hu, hr⟩
    · exact .inr ⟨q, List.mem_cons_self, by simp⟩
    · refine .inr ⟨q ++ u, List.mem_cons_of_mem _ (List.mem_map_of_mem hu), ?_⟩
      exact (List.prefix_append_right_inj q).mpr hr
  · rintro (rfl | ⟨path, hpath, hp⟩)
    · exact .inl List.nil_prefix
    rcases List.mem_cons.mp hpath with rfl | hpath
    · exact .inl hp
    obtain ⟨u, hu, rfl⟩ := List.mem_map.mp hpath
    -- of two beginnings of one path, one begins the other
    rcases List.prefix_or_prefix_of_prefix hp (List.prefix_append q u) with hq | ⟨r, rfl⟩
    · exact .inl hq
    · have hr : r <+: u := (List.prefix_append_right_inj q).mp hp
      exact .inr ⟨r, rfl, (h.hasNode_iff r).mpr (.inr ⟨u, hu, hr⟩)⟩

theorem ofPath (q : List Step) : empty.Adds [q] (ofPath q) := by
  rw [ofPath_eq_under]
  exact (refl empty).under q

/-- What can be read from a tree that is nothing but its paths. -/
theorem isSome_get?_iff {t : CallTree} {ps : List (List Step)} (h : empty.Adds ps t)
    (p : List Step) : (t.get? p).isSome = true ↔ p = [] ∨ ∃ q ∈ ps, p <+: q :=
  (CallTree.isSome_get?_iff p (h.ordered ordered_empty)).trans (h.hasNode_iff p)

end Adds

end CallTree

end Fieldwise
