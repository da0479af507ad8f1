import Fieldwise.Catalog.Builder
import Fieldwise.Proofs.Catalog.Levels

/-!
# Members with their depths

* `DepthFields.shallower` : of two members under one name the one that lies less deep.
* `DepthFields.get?_insert`, `DepthFields.get?_promote` : what is found once a member was added, or
  all those of an embedded record.
* `DepthFields.get?_ofOwn` : a record's own members under one name are found in their order.
* `DepthFields.get?_toFieldSet` : a field set has the members without their depths.

Keys are put into lower case each time members are handed on, first with their depths and then into
the field set. They stay as they are, because they are in lower case already (`Tidy`).
-/

set_option autoImplicit false

namespace Fieldwise

namespace DepthFields

variable {s : DepthFields} {key name : String} {type : TypeExpr} {depth : Nat}

/-- Entries are in order and their keys in lower case. -/
structure Tidy (s : DepthFields) : Prop where
  ordered : Keyed.Ordered s.entries
  lower : ∀ entry ∈ s.entries, Text.lowercase entry.1 = entry.1

/-- Of two members under one name the one that lies less deep, the first of two equally deep
ones. -/
def shallower : Option (TypeExpr × Nat) → Option (TypeExpr × Nat) → Option (TypeExpr × Nat)
  | some a, some b => if a.2 ≤ b.2 then some a else some b
  | some a, none => some a
  | none, b => b

/-- The member as seen from a record that embeds its record. -/
def deeper (member : TypeExpr × Nat) : TypeExpr × Nat :=
  (member.1, member.2 + 1)

@[simp] theorem shallower_none (a : Option (TypeExpr × Nat)) : shallower a none = a := by
  cases a <;> rfl

@[simp] theorem shallower_zero (type : TypeExpr) (b : Option (TypeExpr × Nat)) :
    shallower (some (type, 0)) b = some (type, 0) := by
  cases b <;> simp [shallower]

theorem shallower_assoc : ∀ a b c : Option (TypeExpr × Nat),
    shallower (shallower a b) c = shallower a (shallower b c)
  | none, _, _ => rfl
  | some _, none, _ => rfl
  | some _, some _, none => by simp only [shallower_none]
  | some a, some b, some c => by
    by_cases hab : a.2 ≤ b.2
    · by_cases hbc : b.2 ≤ c.2
      · simp [shallower, hab, hbc, Nat.le_trans hab hbc]
      · simp [shallower, hab, hbc]
    · by_cases hbc : b.2 ≤ c.2
      · simp [shallower, hab, hbc]
      · have hac : ¬ a.2 ≤ c.2 := by omega
        simp [shallower, hab, hbc, hac]

/-! ## One member -/

theorem tidy_empty : empty.Tidy :=
  ⟨.nil, nofun⟩

theorem tidy_put (h : s.Tidy) (name : String) (member : TypeExpr × Nat) :
    Tidy ⟨Keyed.put (Text.lowercase name) member s.entries⟩ := by
  refine ⟨Keyed.ordered_update _ _ h.ordered, fun entry hentry => ?_⟩
  rcases Keyed.mem_of_mem_update s.entries hentry with hentry | rfl | ⟨_, _, rfl⟩
  · exact h.lower entry hentry
  · exact Text.lowercase_lowercase name
  · exact Text.lowercase_lowercase name

theorem Tidy.insert (h : s.Tidy) (name : String) (type : TypeExpr) (depth : Nat) :
    (s.insert name type depth).Tidy := by
  rw [DepthFields.insert]
  split
  · split
    · exact h
    · exact tidy_put h name _
  · exact tidy_put h name _

theorem get?_put (h : s.Tidy) (name : String) (member : TypeExpr × Nat) :
    get? ⟨Keyed.put (Text.lowercase name) member s.entries⟩ key =
      if Text.lowercase name = Text.lowercase key then some member else s.get? key := by
  rw [get?, Keyed.put]
  split
  · rename_i hkey
    rw [← hkey, Keyed.lookup_update_self _ _ _ h.ordered]
  · rename_i hkey
    exact Keyed.lookup_update_of_ne (Ne.symm hkey) _ _

/-- **A member is seen under its own name only**, and there unless another one lies no deeper. -/
theorem get?_insert (h : s.Tidy) :
    (s.insert name type depth).get? key =
      if Text.lowercase name = Text.lowercase key then shallower (s.get? key) (some (type, depth))
      else s.get? key := by
  by_cases hkey : Text.lowercase name = Text.lowercase key
  · have hsame : s.get? key = s.get? name := by
      rw [get?, ← hkey, ← get?]
    rw [if_pos hkey, hsame, insert]
    cases hpresent : s.get? name with
    | none => exact (get?_put h name _).trans (if_pos hkey)
    | some present =>
      simp only [shallower]
      split
      · exact hsame.trans hpresent
      · exact (get?_put h name _).trans (if_pos hkey)
  · rw [if_neg hkey, insert]
    split
    · split
      · rfl
      · exact (get?_put h name _).trans (if_neg hkey)
    · exact (get?_put h name _).trans (if_neg hkey)

/-! ## Members of embedded records -/

theorem Tidy.promote (h : s.Tidy) (promoted : DepthFields) : (s.promote promoted).Tidy :=
  List.foldlRecOn promoted.entries _ h fun _ h member _ =>
    h.insert member.1 member.2.1 (member.2.2 + 1)

/-- **The members of an embedded record are seen one step deeper**, where no other lies as deep or
less deep. -/
theorem get?_promote : ∀ (promoted s : DepthFields), promoted.Tidy → s.Tidy →
    (s.promote promoted).get? key = shallower (s.get? key) ((promoted.get? key).map deeper)
  | ⟨[]⟩, s, _, _ => (shallower_none _).symm
  | ⟨(name, type, depth) :: rest⟩, s, hp, hs => by
    have hlower : Text.lowercase name = name := hp.lower _ List.mem_cons_self
    have hrest : Tidy ⟨rest⟩ :=
      ⟨hp.ordered.tail, fun entry hentry => hp.lower entry (List.mem_cons_of_mem _ hentry)⟩
    have hstep : s.promote ⟨(name, type, depth) :: rest⟩ =
        (s.insert name type (depth + 1)).promote ⟨rest⟩ := rfl
    rw [hstep, get?_promote ⟨rest⟩ _ hrest (hs.insert _ _ _), get?_insert hs, hlower]
    simp only [get?]
    split
    · rename_i hkey
      rw [← hkey, hp.ordered.lookup_tail, List.lookup_cons_self]
      exact shallower_none _
    · rename_i hkey
      rw [List.lookup_cons, beq_eq_false_iff_ne.mpr (Ne.symm hkey)]

/-! ## Own members -/

theorem tidy_ofOwn (decl : TypeDecl) : (ofOwn decl).Tidy :=
  List.foldlRecOn decl.ownMembers _ tidy_empty fun _ h member _ => h.insert member.1 member.2 0

/-- Members of depth zero, added one after another. -/
theorem get?_foldl_insert : ∀ (members : List (String × TypeExpr)) (s : DepthFields), s.Tidy →
    (members.foldl (fun s member => s.insert member.1 member.2 0) s).get? key =
      shallower (s.get? key)
        ((members.find? fun member => Text.lowercase member.1 == Text.lowercase key).map
          fun member => (member.2, 0))
  | [], s, _ => (shallower_none _).symm
  | (name, type) :: rest, s, h => by
    rw [List.foldl_cons, get?_foldl_insert rest _ (h.insert _ _ _), get?_insert h, List.find?_cons]
    by_cases hkey : Text.lowercase name = Text.lowercase key
    · rw [if_pos hkey, beq_iff_eq.mpr hkey, shallower_assoc, shallower_zero]
      rfl
    · rw [if_neg hkey, beq_eq_false_iff_ne.mpr hkey]

/-- **Of a record's own members under one name the first is found.** -/
theorem get?_ofOwn (decl : TypeDecl) :
    (ofOwn decl).get? key =
      (decl.ownMembers.find? fun member => Text.lowercase member.1 == Text.lowercase key).map
        fun member => (member.2, 0) :=
  get?_foldl_insert decl.ownMembers empty tidy_empty

/-! ## Without depths -/

theorem find?_eq_lookup (key : String) : ∀ entries : List (String × TypeExpr × Nat),
    (∀ entry ∈ entries, Text.lowercase entry.1 = entry.1) →
    (entries.find? fun entry => Text.lowercase entry.1 == key) =
      (entries.lookup key).map fun member => (key, member)
  | [], _ => rfl
  | (name, member) :: rest, h => by
    obtain ⟨hname, hrest⟩ := List.forall_mem_cons.mp h
    rw [List.find?_cons, List.lookup_cons, find?_eq_lookup key rest hrest, hname]
    by_cases hkey : name = key
    · subst hkey
      simp
    · rw [beq_eq_false_iff_ne.mpr hkey, beq_eq_false_iff_ne.mpr (Ne.symm hkey)]

/-- **A field set has the same members**, without their depths. -/
theorem get?_toFieldSet (h : s.Tidy) (key : String) :
    s.toFieldSet.get? key = (s.get? key).map Prod.fst := by
  rw [toFieldSet, FieldSet.get?, FieldSet.lookup_insertAll _ _ FieldSet.empty .nil, List.find?_map,
    get?]
  have hfound := find?_eq_lookup (Text.lowercase key) s.entries h.lower
  simp only [Function.comp_def, hfound, FieldSet.empty, List.lookup_nil, Option.none_or,
    Option.map_map]

end DepthFields

end Fieldwise
