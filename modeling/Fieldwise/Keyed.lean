/-!
# Entries ordered by key

A keyed list holds entries under texts, in strictly increasing order of their code points.
`update` is the one way to add or change an entry.

Main statements: `ordered_update` (the order is kept), `lookup_update_self` and
`lookup_update_of_ne` (an update is seen at its own key and nowhere else).
-/

set_option autoImplicit false

namespace Fieldwise.Keyed

variable {α : Type}

/-- The keys increase strictly, so each occurs once. -/
def Ordered (entries : List (String × α)) : Prop :=
  entries.Pairwise fun a b => a.1 < b.1

/-- Puts `f` of the present value, or of `none`, under `key`. -/
def update (key : String) (f : Option α → α) : List (String × α) → List (String × α)
  | [] => [(key, f none)]
  | (k, v) :: rest =>
    if key = k then (k, f (some v)) :: rest
    else if key < k then (key, f none) :: (k, v) :: rest
    else (k, v) :: update key f rest

/-- Puts `value` under `key`, in place of what was there. -/
def put (key : String) (value : α) (entries : List (String × α)) : List (String × α) :=
  update key (fun _ => value) entries

/-- Puts `value` under `key` unless the key is already in use. -/
def putNew (key : String) (value : α) (entries : List (String × α)) : List (String × α) :=
  update key (fun present => present.getD value) entries

/-- Entries in key order; of several under one key the last is kept. -/
def ofList (entries : List (String × α)) : List (String × α) :=
  entries.foldl (fun kept entry => put entry.1 entry.2 kept) []

/-- The key is in use. -/
def contains (key : String) (entries : List (String × α)) : Bool :=
  (entries.lookup key).isSome

/-! ## What an update changes -/

theorem mem_keys_update {key k : String} {f : Option α → α} {entries : List (String × α)} :
    k ∈ (update key f entries).map Prod.fst ↔ k = key ∨ k ∈ entries.map Prod.fst := by
  induction entries with
  | nil => simp [update]
  | cons entry rest ih =>
    obtain ⟨k', v⟩ := entry
    simp only [update]
    split
    · next h => subst h; simp
    · split
      · simp
      · simp only [List.map_cons, List.mem_cons, ih]
        constructor <;> rintro (h | h | h) <;> simp [h]

@[simp] theorem lookup_update_self (key : String) (f : Option α → α)
    (entries : List (String × α)) (h : Ordered entries) :
    (update key f entries).lookup key = some (f (entries.lookup key)) := by
  induction entries with
  | nil => simp [update]
  | cons entry rest ih =>
    obtain ⟨k, v⟩ := entry
    obtain ⟨hfirst, hrest⟩ := List.pairwise_cons.mp h
    simp only [update]
    split
    · next e => subst e; simp
    · next hne =>
      have hbeq : (key == k) = false := by simpa using hne
      split
      · next hlt =>
        have hnone : rest.lookup key = none := by
          rw [List.lookup_eq_none_iff]
          intro entry hmem
          have hk : k < entry.1 := hfirst entry hmem
          have hne' : key ≠ entry.1 := fun e =>
            String.lt_irrefl k (String.lt_trans (e ▸ hk) hlt)
          simpa using hne'
        simp [List.lookup_cons, hbeq, hnone]
      · simp [List.lookup_cons, hbeq, ih hrest]

theorem lookup_update_of_ne {key k : String} (hne : k ≠ key) (f : Option α → α)
    (entries : List (String × α)) : (update key f entries).lookup k = entries.lookup k := by
  have hbeq : (k == key) = false := by simpa using hne
  induction entries with
  | nil => simp [update, List.lookup_cons, hbeq]
  | cons entry rest ih =>
    obtain ⟨k', v⟩ := entry
    simp only [update]
    split
    · next e => subst e; simp [List.lookup_cons, hbeq]
    · split
      · simp [List.lookup_cons, hbeq]
      · simp only [List.lookup_cons]
        split
        · rfl
        · exact ih

theorem ordered_update (key : String) (f : Option α → α) {entries : List (String × α)}
    (h : Ordered entries) : Ordered (update key f entries) := by
  induction entries with
  | nil => simp [update, Ordered]
  | cons entry rest ih =>
    obtain ⟨k, v⟩ := entry
    obtain ⟨hfirst, hrest⟩ := List.pairwise_cons.mp h
    simp only [update]
    split
    · exact List.pairwise_cons.mpr ⟨hfirst, hrest⟩
    · next hne =>
      split
      · next hlt =>
        refine List.pairwise_cons.mpr ⟨fun entry hmem => ?_, h⟩
        rcases List.mem_cons.mp hmem with rfl | hmem
        · exact hlt
        · exact String.lt_trans hlt (hfirst entry hmem)
      · next hnlt =>
        have hgt : k < key := Decidable.byContradiction fun h =>
          hne (String.le_antisymm (String.not_lt.mp h) (String.not_lt.mp hnlt))
        refine List.pairwise_cons.mpr ⟨fun entry hmem => ?_, ih hrest⟩
        have hkey : entry.1 ∈ (update key f rest).map Prod.fst := List.mem_map_of_mem hmem
        rcases mem_keys_update.mp hkey with e | hkey
        · exact e ▸ hgt
        · obtain ⟨entry', hmem', e⟩ := List.mem_map.mp hkey
          exact e ▸ hfirst entry' hmem'

end Fieldwise.Keyed
