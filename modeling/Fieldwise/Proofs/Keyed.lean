import Fieldwise.Keyed
import Mathlib.Data.List.Basic
import Mathlib.Data.List.Nodup

/-!
# Look-ups in keyed lists

* `forall_mem_update`, `mem_of_mem_update` : the entries of a list after an update.
* `lookup_eq_none_iff_notMem` : a look-up finds nothing exactly under the keys that no entry has.
* `lookup_eq_some_iff_mem` : in a list in order a look-up finds whatever is there.
* `ext` : lists in order are equal when every look-up agrees.
* `lookup_perm` : where each key occurs once, the order of the entries does not matter to look-ups.
* `lookup_putAll` : entries put one after another, each key once, are found again.
-/

set_option autoImplicit false

namespace Fieldwise.Keyed

variable {α β : Type}

/-! ## Updates -/

/-- What holds of all entries after an update, when `f` adds the condition `Q`. -/
theorem forall_mem_update {key : String} {f : Option α → α} {P : String × α → Prop} {Q : Prop}
    (hnone : P (key, f none) ↔ Q) :
    ∀ entries : List (String × α),
      (∀ v, (key, v) ∈ entries → (P (key, f (some v)) ↔ P (key, v) ∧ Q)) →
      ((∀ entry ∈ update key f entries, P entry) ↔ (∀ entry ∈ entries, P entry) ∧ Q)
  | [], _ => by simp [update, hnone]
  | (k, v) :: rest, hsome => by
    simp only [update]
    split
    · rename_i hk
      subst hk
      simp only [List.forall_mem_cons, hsome v List.mem_cons_self]
      exact and_right_comm
    · split
      · simp only [List.forall_mem_cons, hnone]
        exact and_comm
      · have ih := forall_mem_update hnone rest fun w hw =>
          hsome w (List.mem_cons_of_mem _ hw)
        simp only [List.forall_mem_cons, ih]
        exact and_assoc.symm

/-- Where an entry comes from after an update. -/
theorem mem_of_mem_update {key : String} {f : Option α → α} {entry : String × α} :
    ∀ entries : List (String × α), entry ∈ update key f entries →
      entry ∈ entries ∨ entry = (key, f none) ∨
        ∃ v, (key, v) ∈ entries ∧ entry = (key, f (some v))
  | [], h => .inr (.inl (List.mem_singleton.mp h))
  | (k, v) :: rest, h => by
    rw [update] at h
    split at h
    · rename_i hk
      subst hk
      rcases List.mem_cons.mp h with rfl | h
      · exact .inr (.inr ⟨v, List.mem_cons_self, rfl⟩)
      · exact .inl (List.mem_cons_of_mem _ h)
    split at h
    · rcases List.mem_cons.mp h with rfl | h
      · exact .inr (.inl rfl)
      · exact .inl h
    · rcases List.mem_cons.mp h with rfl | h
      · exact .inl List.mem_cons_self
      rcases mem_of_mem_update rest h with h | h | ⟨w, hw, h⟩
      · exact .inl (List.mem_cons_of_mem _ h)
      · exact .inr (.inl h)
      · exact .inr (.inr ⟨w, List.mem_cons_of_mem _ hw, h⟩)

/-! ## Keys that are not there -/

/-- A look-up finds nothing exactly under the keys that no entry has. -/
theorem lookup_eq_none_iff_notMem {key : String} {entries : List (String × α)} :
    entries.lookup key = none ↔ key ∉ entries.map Prod.fst := by
  rw [List.lookup_eq_none_iff, List.mem_map]
  constructor
  · rintro h ⟨entry, hentry, rfl⟩
    exact bne_iff_ne.mp (h entry hentry) rfl
  · exact fun h entry hentry => bne_iff_ne.mpr fun hkey => h ⟨entry, hentry, hkey.symm⟩

/-! ## Lists in order -/

theorem Ordered.tail {entry : String × α} {rest : List (String × α)}
    (h : Ordered (entry :: rest)) : Ordered rest :=
  (List.pairwise_cons.mp h).2

/-- In order, the key of the first entry is not used again. -/
theorem Ordered.lookup_tail {key : String} {v : α} {rest : List (String × α)}
    (h : Ordered ((key, v) :: rest)) : rest.lookup key = none := by
  rw [lookup_eq_none_iff_notMem, List.mem_map]
  rintro ⟨entry, hentry, rfl⟩
  exact String.lt_irrefl _ ((List.pairwise_cons.mp h).1 entry hentry)

theorem Ordered.nodup {entries : List (String × α)} (h : Ordered entries) : entries.Nodup := by
  refine List.Pairwise.imp (fun {a b} hlt heq => ?_) h
  subst heq
  exact String.lt_irrefl _ hlt

/-- Keys in order are different from each other. -/
theorem Ordered.nodup_keys {entries : List (String × α)} (h : Ordered entries) :
    (entries.map Prod.fst).Nodup :=
  List.pairwise_map.mpr (h.imp fun {_ _} hlt => String.ne_of_lt hlt)

/-- In order, so that each key occurs once, a look-up finds whatever is there. -/
theorem lookup_eq_some_iff_mem {key : String} {v : α} {entries : List (String × α)}
    (h : Ordered entries) : entries.lookup key = some v ↔ (key, v) ∈ entries := by
  induction entries with
  | nil => simp
  | cons entry rest ih =>
    obtain ⟨k, w⟩ := entry
    obtain ⟨hfirst, hrest⟩ := List.pairwise_cons.mp h
    rw [List.lookup_cons, List.mem_cons, Prod.mk.injEq]
    split
    · rename_i hk
      have hk' : key = k := by simpa using hk
      subst hk'
      have hnot : (key, v) ∉ rest := fun hmem => String.lt_irrefl key (hfirst _ hmem)
      simp only [Option.some.injEq, true_and, hnot, or_false]
      exact eq_comm
    · rename_i hk
      have hk' : key ≠ k := by simpa using hk
      simp only [hk', false_and, false_or]
      exact ih hrest

/-- **Entries in order are equal when every look-up agrees.** -/
theorem ext {xs ys : List (String × α)} (hx : Ordered xs) (hy : Ordered ys)
    (h : ∀ key, xs.lookup key = ys.lookup key) : xs = ys := by
  have hmem : ∀ entry, entry ∈ xs ↔ entry ∈ ys := fun ⟨key, v⟩ => by
    rw [← lookup_eq_some_iff_mem hx, ← lookup_eq_some_iff_mem hy, h]
  have hperm : xs.Perm ys := (List.perm_ext_iff_of_nodup hx.nodup hy.nodup).mpr hmem
  refine hperm.eq_of_pairwise (fun a b _ _ hab hba => ?_) hx hy
  exact absurd (String.lt_trans hab hba) (String.lt_irrefl _)

/-! ## Keys that occur once -/

/-- Where each key occurs once, a look-up finds whatever is there. -/
theorem lookup_eq_some_of_mem {key : String} {v : α} {entries : List (String × α)}
    (hkeys : (entries.map Prod.fst).Nodup) (h : (key, v) ∈ entries) :
    entries.lookup key = some v := by
  induction entries with
  | nil => cases h
  | cons entry rest ih =>
    obtain ⟨k, w⟩ := entry
    obtain ⟨hnew, hrest⟩ := List.nodup_cons.mp hkeys
    rcases List.mem_cons.mp h with h | h
    · cases h
      simp
    · have hne : (key == k) = false :=
        beq_eq_false_iff_ne.mpr fun hk => hnew (List.mem_map.mpr ⟨(key, v), h, hk⟩)
      rw [List.lookup_cons, hne]
      exact ih hrest h

/-- The order of entries does not matter to a look-up where each key occurs once. -/
theorem lookup_perm {entries entries' : List (String × α)} (h : entries'.Perm entries)
    (hkeys : (entries.map Prod.fst).Nodup) (key : String) :
    entries'.lookup key = entries.lookup key := by
  have hkeys' : (entries'.map Prod.fst).Nodup := (h.map Prod.fst).nodup_iff.mpr hkeys
  cases hlookup : entries.lookup key with
  | some v =>
    obtain ⟨l, r, rfl, -⟩ := List.lookup_eq_some_iff.mp hlookup
    exact lookup_eq_some_of_mem hkeys' (h.mem_iff.mpr (by simp))
  | none =>
    rw [lookup_eq_none_iff_notMem] at hlookup ⊢
    rwa [(h.map Prod.fst).mem_iff]

/-! ## Entries put one after another -/

/-- Entries put one after another stay in order. -/
theorem ordered_putAll (f : String × β → α) (xs : List (String × β)) :
    ∀ entries : List (String × α), Ordered entries →
      Ordered (xs.foldl (fun entries x => put x.1 (f x) entries) entries) := by
  induction xs with
  | nil => exact fun _ h => h
  | cons x rest ih => exact fun _ h => ih _ (ordered_update _ _ h)

/-- What is found after entries were put one after another, each under a key of its own. -/
theorem lookup_putAll (f : String × β → α) (key : String) :
    ∀ (xs : List (String × β)) (entries : List (String × α)), Ordered entries →
      (xs.map Prod.fst).Nodup →
      (xs.foldl (fun entries x => put x.1 (f x) entries) entries).lookup key =
        ((xs.lookup key).map fun b => f (key, b)).or (entries.lookup key)
  | [], _, _, _ => by simp
  | (k, b) :: rest, entries, hordered, hkeys => by
    obtain ⟨hnew, hrest⟩ := List.nodup_cons.mp hkeys
    have hordered' : Ordered (put k (f (k, b)) entries) := ordered_update _ _ hordered
    rw [List.foldl_cons, lookup_putAll f key rest _ hordered' hrest]
    by_cases hk : key = k
    · subst hk
      have hnone : rest.lookup key = none := lookup_eq_none_iff_notMem.mpr hnew
      simp [put, hnone, lookup_update_self _ _ _ hordered]
    · rw [put, lookup_update_of_ne hk, List.lookup_cons, beq_eq_false_iff_ne.mpr hk]

end Fieldwise.Keyed
