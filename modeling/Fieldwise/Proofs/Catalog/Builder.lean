import Fieldwise.Proofs.Catalog.Depths
import Fieldwise.Proofs.Catalog.Promotion
import Fieldwise.Proofs.Outcome

/-!
# What the builder of field sets finds

* `CatalogFile.Finds` : the nearest of some candidates is found, with its type and its depth.
* `DepthFields.Gathered` : what has been put together for a record out of its own members and those
  of the first of the records that it embeds. It is kept when the next one is taken
  (`Gathered.promote`).
* `DepthFields.build_ok` : what is built for a record, and whatever is remembered then, has the
  nearest candidates.
-/

set_option autoImplicit false

namespace Fieldwise

namespace CatalogFile

variable {types : List (String × TypeDecl)} {record key target : String} {i : Nat}

/-! ## Candidates of embedded records -/

theorem Candidate.Nearer.trans {a b c : Candidate types record key} (h : a.Nearer b)
    (h' : b.Nearer c) : a.Nearer c := by
  rcases h with h | ⟨hlength, h⟩ <;> rcases h' with h' | ⟨hlength', h'⟩
  · exact .inl (Nat.lt_trans h h')
  · exact .inl (hlength' ▸ h)
  · exact .inl (hlength ▸ h')
  refine .inr ⟨hlength.trans hlength', ?_⟩
  rcases h with h | ⟨hpath, h⟩ <;> rcases h' with h' | ⟨hpath', h'⟩
  · exact .inl (List.lt_trans h h')
  · exact .inl (hpath' ▸ h)
  · exact .inl (hpath ▸ h')
  · exact .inr ⟨hpath.trans hpath', Nat.le_trans h h'⟩

/-- A candidate of an embedded record, seen from the record that embeds it. -/
def Candidate.behind (hfield : (i, target) ∈ placedEmbedded types record)
    (a : Candidate types target key) : Candidate types record key :=
  { a with
    path := i :: a.path
    leads := by
      obtain ⟨decl, f, hdecl, hf, hembedded, htarget⟩ := mem_placedEmbedded.mp hfield
      exact leads_cons_iff.mpr ⟨decl, f, target, hdecl, hf, hembedded, htarget, a.leads⟩ }

theorem Candidate.nearer_behind_iff (hfield : (i, target) ∈ placedEmbedded types record)
    {a b : Candidate types target key} :
    (a.behind hfield).Nearer (b.behind hfield) ↔ a.Nearer b := by
  simp [Nearer, behind]

/-- A chain starts with an embedded field, unless it is empty. -/
theorem Candidate.exists_mem_placedEmbedded (a : Candidate types record key)
    (h : a.path.head? = some i) : ∃ target, (i, target) ∈ placedEmbedded types record := by
  obtain ⟨rest, hpath⟩ := List.head?_eq_some_iff.mp h
  obtain ⟨decl, f, target, hdecl, hf, hembedded, htarget, -⟩ := leads_cons_iff.mp (hpath ▸ a.leads)
  exact ⟨target, mem_placedEmbedded.mpr ⟨decl, f, hdecl, hf, hembedded, htarget⟩⟩

/-- Behind its first field a chain is one of the embedded record. -/
theorem Candidate.exists_behind (hfield : (i, target) ∈ placedEmbedded types record)
    (a : Candidate types record key) (h : a.path.head? = some i) :
    ∃ b : Candidate types target key, b.behind hfield = a := by
  obtain ⟨path, owner, decl, place, name, type, hleads, hdeclared, hoffers, hnamed⟩ := a
  obtain ⟨rest, rfl⟩ := List.head?_eq_some_iff.mp h
  obtain ⟨first, f, next, hfirst, hf, -, hnext, hrest⟩ := leads_cons_iff.mp hleads
  obtain ⟨first', f', hfirst', hf', -, htarget⟩ := mem_placedEmbedded.mp hfield
  cases hfirst.symm.trans hfirst'
  cases hf.symm.trans hf'
  cases hnext.symm.trans htarget
  exact ⟨⟨rest, owner, decl, place, name, type, hrest, hdeclared, hoffers, hnamed⟩, rfl⟩

/-! ## The nearest of some candidates -/

/-- Of the candidates with the property, the nearest is found, with its type and its depth. -/
def Finds (P : Candidate types record key → Prop) : Option (TypeExpr × Nat) → Prop
  | none => ∀ a, ¬ P a
  | some found =>
    ∃ a, P a ∧ (a.type, a.path.length) = found ∧ ∀ b, P b → a.Nearer b

theorem Finds.congr {P Q : Candidate types record key → Prop} {found : Option (TypeExpr × Nat)}
    (h : Finds P found) (hPQ : ∀ a, P a ↔ Q a) : Finds Q found := by
  rwa [← funext fun a => propext (hPQ a)]

/-- **The shallower of two finds** is the nearest of both kinds of candidates, if of two equally
deep ones that of the first kind is nearer. -/
theorem Finds.shallower {P Q : Candidate types record key → Prop} {a b : Option (TypeExpr × Nat)}
    (ha : Finds P a) (hb : Finds Q b)
    (hfirst : ∀ x y, P x → Q y → x.path.length ≤ y.path.length → x.Nearer y) :
    Finds (fun c => P c ∨ Q c) (DepthFields.shallower a b) := by
  match a, b, ha, hb with
  | none, _, ha, hb => exact hb.congr fun c => (or_iff_right (ha c)).symm
  | some a, none, ha, hb =>
    have ha : Finds P (some a) := ha
    exact ha.congr fun c => (or_iff_left (hb c)).symm
  | some _, some _, ⟨x, hx, rfl, hxleast⟩, ⟨y, hy, rfl, hyleast⟩ =>
    simp only [DepthFields.shallower]
    split
    · rename_i hle
      have hxy := hfirst x y hx hy hle
      exact ⟨x, .inl hx, rfl, fun c hc => hc.elim (hxleast c) fun hc => hxy.trans (hyleast c hc)⟩
    · rename_i hgt
      have hyx : y.Nearer x := .inl (Nat.lt_of_not_le hgt)
      exact ⟨y, .inr hy, rfl, fun c hc => hc.elim (fun hc => hyx.trans (hxleast c hc)) (hyleast c)⟩

/-- What an embedded record has is found one step deeper, of the candidates behind its field. -/
theorem Finds.behind (hfield : (i, target) ∈ placedEmbedded types record)
    {found : Option (TypeExpr × Nat)}
    (h : Finds (fun _ : Candidate types target key => True) found) :
    Finds (fun a : Candidate types record key => a.path.head? = some i)
      (found.map DepthFields.deeper) := by
  match found, h with
  | none, h =>
    intro a ha
    obtain ⟨b, -⟩ := a.exists_behind hfield ha
    exact h b trivial
  | some _, ⟨a, _, rfl, hleast⟩ =>
    refine ⟨a.behind hfield, rfl, rfl, fun c hc => ?_⟩
    obtain ⟨b, rfl⟩ := c.exists_behind hfield hc
    exact (Candidate.nearer_behind_iff hfield).mpr (hleast b trivial)

/-- **Of the candidates without steps** the one declared first is found among a record's own
members. -/
theorem finds_ofOwn {decl : TypeDecl} (hdecl : types.lookup record = some decl) (key : String) :
    Finds (fun a : Candidate types record key => a.path = [])
      ((DepthFields.ofOwn decl).get? key) := by
  rw [DepthFields.get?_ofOwn, ← decl.map_placedMembers, List.find?_map, Option.map_map]
  cases hfound : decl.placedMembers.find?
    ((fun member => Text.lowercase member.1 == Text.lowercase key) ∘ Prod.snd) with
  | none =>
    intro a hpath
    have hmem := TypeDecl.mem_placedMembers.mpr (a.offers_of_nil hdecl hpath)
    exact List.find?_eq_none.mp hfound _ hmem (beq_iff_eq.mpr a.named)
  | some member =>
    obtain ⟨place, name, type⟩ := member
    obtain ⟨hmem, hnamed, hleast⟩ := (find?_eq_some_iff_least decl.placedMembers_sorted
      fun _ _ => Nat.lt_asymm).mp hfound
    refine ⟨⟨[], record, decl, place, name, type, .here, hdecl,
      TypeDecl.mem_placedMembers.mp hmem, beq_iff_eq.mp hnamed⟩, rfl, rfl, fun b hpath => ?_⟩
    have hplace := hleast _ (TypeDecl.mem_placedMembers.mpr (b.offers_of_nil hdecl hpath))
      (beq_iff_eq.mpr b.named)
    exact .inr ⟨(congrArg List.length hpath).symm, .inr ⟨hpath.symm, Nat.le_of_not_lt hplace⟩⟩

end CatalogFile

namespace DepthFields

open CatalogFile

variable {types : List (String × TypeDecl)} {record target : String} {i : Nat}

/-! ## Gathering the members of a record -/

/-- What has been put together for a record out of its own members and of those that it has through
the embedded fields `taken`. No circle is to be met below these. -/
structure Gathered (types : List (String × TypeDecl)) (record : String)
    (taken : List (Nat × String)) (s : DepthFields) : Prop where
  tidy : s.Tidy
  finds : ∀ key, Finds
    (fun a : Candidate types record key => a.path = [] ∨ ∃ x ∈ taken, a.path.head? = some x.1)
    (s.get? key)
  ends : ∀ x ∈ taken, Acc (flip (Embeds types)) x.2

/-- The members of a record: under each name the nearest candidate, with its depth. No circle is to
be met below the record. -/
structure Complete (types : List (String × TypeDecl)) (record : String) (s : DepthFields) :
    Prop where
  tidy : s.Tidy
  finds : ∀ key, Finds (fun _ : Candidate types record key => True) (s.get? key)
  ends : Acc (flip (Embeds types)) record

/-- What is remembered is complete. -/
def Memo.Sound (types : List (String × TypeDecl)) (done : Memo) : Prop :=
  ∀ name fields, done.lookup name = some fields → Complete types name fields

theorem gathered_ofOwn {decl : TypeDecl} (hdecl : types.lookup record = some decl) :
    Gathered types record [] (ofOwn decl) :=
  ⟨tidy_ofOwn decl, fun key => (finds_ofOwn hdecl key).congr fun _ => by simp, by simp⟩

/-- **Taking the next embedded field** keeps the members nearest: of two equally deep ones that
which was there before has a chain that turns off earlier. -/
theorem Gathered.promote {taken : List (Nat × String)} {s promoted : DepthFields}
    (h : Gathered types record taken s) (hfield : (i, target) ∈ placedEmbedded types record)
    (hlast : ∀ x ∈ taken, x.1 < i) (hpromoted : Complete types target promoted) :
    Gathered types record (taken ++ [(i, target)]) (s.promote promoted) := by
  refine ⟨h.tidy.promote promoted, fun key => ?_, fun x hx => ?_⟩
  · rw [get?_promote promoted s hpromoted.tidy h.tidy]
    refine ((h.finds key).shallower ((hpromoted.finds key).behind hfield) ?_).congr fun a => ?_
    · intro x y hx hy hle
      obtain ⟨rest, hpath⟩ := List.head?_eq_some_iff.mp hy
      rcases hx with hx | ⟨⟨j, target'⟩, hj, hx⟩
      · left
        rw [hx, hpath]
        exact Nat.zero_lt_succ _
      · rcases Nat.lt_or_eq_of_le hle with hlt | hlength
        · exact .inl hlt
        obtain ⟨rest', hpath'⟩ := List.head?_eq_some_iff.mp hx
        refine .inr ⟨hlength, .inl ?_⟩
        rw [hpath, hpath']
        exact .rel (hlast _ hj)
    · simp only [List.mem_append, List.mem_singleton, or_and_right, exists_or, exists_eq_left,
        or_assoc]
  · rcases List.mem_append.mp hx with hx | hx
    · exact h.ends x hx
    · rw [List.mem_singleton.mp hx]
      exact hpromoted.ends

/-- Once all embedded fields are taken the members are complete. -/
theorem Gathered.complete {s : DepthFields}
    (h : Gathered types record (placedEmbedded types record) s) : Complete types record s := by
  refine ⟨h.tidy, fun key => (h.finds key).congr fun a => ?_, Acc.intro _ fun b hb => ?_⟩
  · refine iff_true_intro ?_
    cases hpath : a.path.head? with
    | none => exact .inl (List.head?_eq_none_iff.mp hpath)
    | some i =>
      obtain ⟨target, hfield⟩ := a.exists_mem_placedEmbedded hpath
      exact .inr ⟨_, hfield, rfl⟩
  · have hmem := Embeds.mem_embedded hb
    rw [← map_placedEmbedded] at hmem
    obtain ⟨x, hx, rfl⟩ := List.mem_map.mp hmem
    exact h.ends x hx

/-! ## Going down -/

/-- All embedded records are taken, if what each visit gives is complete. -/
theorem promoteAll_ok_of
    {visit : Memo → String → Except CatalogFault (DepthFields × Memo)}
    (hvisit : ∀ done target fields done', Memo.Sound types done →
      visit done target = .ok (fields, done') →
      Complete types target fields ∧ Memo.Sound types done') :
    ∀ (rest taken : List (Nat × String)) (s s' : DepthFields) (done done' : Memo),
      taken ++ rest = placedEmbedded types record → Gathered types record taken s →
      Memo.Sound types done → promoteAll visit s done (rest.map Prod.snd) = .ok (s', done') →
      Complete types record s' ∧ Memo.Sound types done'
  | [], taken, s, s', done, done', hall, hs, hdone, h => by
    rw [List.map_nil, promoteAll] at h
    cases h
    rw [List.append_nil] at hall
    exact ⟨(hall ▸ hs).complete, hdone⟩
  | (i, target) :: rest, taken, s, s', done, done', hall, hs, hdone, h => by
    rw [List.map_cons, promoteAll] at h
    split at h
    · cases h
    rename_i promoted done₁ hpromoted
    obtain ⟨hcomplete, hdone₁⟩ := hvisit _ _ _ _ hdone hpromoted
    have hfield : (i, target) ∈ placedEmbedded types record := by
      rw [← hall]
      exact List.mem_append_right taken List.mem_cons_self
    have hlast : ∀ x ∈ taken, x.1 < i := by
      have hsorted := placedEmbedded_sorted types record
      rw [← hall, List.pairwise_append] at hsorted
      exact fun x hx => hsorted.2.2 x hx _ List.mem_cons_self
    rw [List.append_cons] at hall
    exact promoteAll_ok_of hvisit rest _ _ _ _ _ hall (hs.promote hfield hlast hcomplete) hdone₁ h

/-- How a record comes by its members: they are remembered, or put together. -/
theorem build_cases {inProgress : List String} {done done' : Memo} {name : String}
    {fields : DepthFields} (h : build types inProgress done name = .ok (fields, done')) :
    (done.lookup name = some fields ∧ done' = done) ∨
      ∃ decl done₁, ¬ inProgress.contains name = true ∧ types.lookup name = some decl ∧
        promoteAll (build types (inProgress ++ [name])) (ofOwn decl) done decl.embeds =
          .ok (fields, done₁) ∧ done' = (name, fields) :: done₁ := by
  rw [build] at h
  split at h
  · rename_i found hfound
    cases h
    exact .inl ⟨hfound, rfl⟩
  split at h
  · cases h
  rename_i hnew
  split at h
  · cases h
  rename_i decl hdecl
  split at h
  · cases h
  rename_i found done₁ hfound
  cases h
  exact .inr ⟨decl, done₁, hnew, hdecl, hfound, rfl⟩

/-- Why a record has no members: it is gone through at present, it is not declared, or a record that
it embeds has none. -/
theorem build_error_cases {inProgress : List String} {done : Memo} {name : String}
    {e : CatalogFault} (h : build types inProgress done name = .error e) :
    (inProgress.contains name = true ∧ e = .embeddingCycle inProgress name) ∨
      (types.lookup name = none ∧ e = .unknownType name "embedding") ∨
        ∃ decl, ¬ inProgress.contains name = true ∧ types.lookup name = some decl ∧
          promoteAll (build types (inProgress ++ [name])) (ofOwn decl) done decl.embeds =
            .error e := by
  rw [build] at h
  split at h
  · cases h
  split at h
  · rename_i hopen
    cases h
    exact .inl ⟨hopen, rfl⟩
  rename_i hnew
  split at h
  · rename_i hmissing
    cases h
    exact .inr (.inl ⟨hmissing, rfl⟩)
  rename_i decl hdecl
  split at h
  · rename_i he
    cases h
    exact .inr (.inr ⟨decl, hnew, hdecl, he⟩)
  · cases h

theorem embedded_of_lookup {name : String} {decl : TypeDecl}
    (hdecl : types.lookup name = some decl) : decl.embeds = embedded types name := by
  rw [embedded, hdecl, Option.map_some, Option.getD_some]

/-- **What is built is complete**, and so is what is remembered then. -/
theorem build_ok {inProgress : List String} {done done' : Memo} {name : String}
    {fields : DepthFields} (hdone : Memo.Sound types done)
    (h : build types inProgress done name = .ok (fields, done')) :
    Complete types name fields ∧ Memo.Sound types done' := by
  rcases build_cases h with ⟨hfound, rfl⟩ | ⟨decl, done₁, hnew, hdecl, hall, rfl⟩
  · exact ⟨hdone name fields hfound, hdone⟩
  have hvisit : ∀ done target found done', Memo.Sound types done →
      build types (inProgress ++ [name]) done target = .ok (found, done') →
      Complete types target found ∧ Memo.Sound types done' :=
    fun _ _ _ _ hdone h => build_ok hdone h
  rw [embedded_of_lookup hdecl, ← map_placedEmbedded] at hall
  obtain ⟨hcomplete, hdone₁⟩ := promoteAll_ok_of hvisit (placedEmbedded types name) [] _ _ _ _
    (List.nil_append _) (gathered_ofOwn hdecl) hdone hall
  refine ⟨hcomplete, fun n found hfound => ?_⟩
  rw [List.lookup_cons] at hfound
  split at hfound
  · rename_i hname
    cases hfound
    rw [beq_iff_eq.mp hname]
    exact hcomplete
  · exact hdone₁ n found hfound
termination_by (types.filter fun entry => !inProgress.contains entry.1).length
decreasing_by exact length_unopened_lt hdecl hnew

/-- Taking several embedded records fails only where a visit fails. -/
theorem promoteAll_error {visit : Memo → String → Except CatalogFault (DepthFields × Memo)}
    {e : CatalogFault} : ∀ (targets : List String) (s : DepthFields) (done : Memo),
      promoteAll visit s done targets = .error e →
      ∃ target ∈ targets, ∃ done, visit done target = .error e
  | [], _, _, h => by
    rw [promoteAll] at h
    cases h
  | target :: rest, s, done, h => by
    rw [promoteAll] at h
    split at h
    · rename_i he
      cases h
      exact ⟨target, List.mem_cons_self, done, he⟩
    · rename_i promoted done₁ _
      obtain ⟨b, hb, he⟩ := promoteAll_error rest (s.promote promoted) done₁ h
      exact ⟨b, List.mem_cons_of_mem _ hb, he⟩

/-- **Building fails only on a circle**, where embedded records are declared. -/
theorem build_error {inProgress : List String} {done : Memo} {name : String} {e : CatalogFault}
    (hembeds : ∀ a, ∀ b ∈ embedded types a, Embeds types a b ∧ b ∈ types.map Prod.fst)
    (hchain : (inProgress ++ [name]).IsChain (Embeds types)) (hname : name ∈ types.map Prod.fst)
    (h : build types inProgress done name = .error e) : ¬ Acyclic (Embeds types) := by
  rcases build_error_cases h with ⟨hopen, -⟩ | ⟨hmissing, -⟩ | ⟨decl, hnew, hdecl, hall⟩
  · exact fun hacyclic =>
      hacyclic name (transGen_of_mem_chain hchain (List.contains_iff_mem.mp hopen))
  · exact absurd hname (Keyed.lookup_eq_none_iff_notMem.mp hmissing)
  · rw [embedded_of_lookup hdecl] at hall
    obtain ⟨b, hb, done₁, he⟩ := promoteAll_error (embedded types name) _ _ hall
    exact build_error hembeds (isChain_append_step hchain (hembeds name b hb).1)
      (hembeds name b hb).2 he
termination_by (types.filter fun entry => !inProgress.contains entry.1).length
decreasing_by exact length_unopened_lt hdecl hnew

/-! ## Without depths -/

/-- **Complete members make the field set** that is gathered level by level. -/
theorem Complete.toFieldSet_eq {file : CatalogFile} {s : DepthFields} (w : file.WellFormed)
    (hrecord : record ∈ file.types.map Prod.fst) (h : Complete file.types record s) :
    s.toFieldSet = FieldSet.ofStruct file.types record := by
  refine FieldSet.insertAll_eq fun key => ?_
  change s.toFieldSet.get? key = (FieldSet.ofStruct file.types record).get? key
  rw [get?_toFieldSet h.tidy]
  have hfinds := h.finds key
  cases hfound : s.get? key with
  | none =>
    rw [hfound] at hfinds
    exact ((FieldSet.get?_ofStruct_eq_none_iff w hrecord).mpr ⟨fun a => hfinds a trivial⟩).symm
  | some found =>
    rw [hfound] at hfinds
    obtain ⟨a, -, rfl, hnearest⟩ := hfinds
    exact ((FieldSet.get?_ofStruct_eq_some_iff w hrecord).mpr
      ⟨a, rfl, fun other => hnearest other trivial⟩).symm

end DepthFields

end Fieldwise
