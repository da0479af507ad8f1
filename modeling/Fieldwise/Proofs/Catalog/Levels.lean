import Fieldwise.Catalog.FieldSet
import Fieldwise.Proofs.Keyed
import Fieldwise.Proofs.Text.Lowercase

/-!
# Field sets level by level

The members of a record can be gathered level by level: its own, then those of the records that it
embeds, then those of the records that these embed. Without memory and depths it is easy to see what
such a field set depends on.

* `FieldSet.lookup_insertAll` : of the members added under one name the first is found.
* `FieldSet.insertAll_eq` : field sets are equal when every look-up agrees.
* `FieldSet.ofStruct_congr` : a field set depends on what the names are declared as, not on the
  order of the declarations.

`DepthFields.build`, which goes down record by record, finds the same field sets.
-/

set_option autoImplicit false

namespace Fieldwise

namespace FieldSet

/-! ## Members added one after another -/

/-- Under each name is the first of the members added. -/
theorem lookup_insertAll (key : String) (members : List (String × TypeExpr)) :
    ∀ s : FieldSet, Keyed.Ordered s.entries →
      (s.insertAll members).entries.lookup key =
        (s.entries.lookup key).or
          ((members.find? fun member => Text.lowercase member.1 == key).map Prod.snd) := by
  induction members with
  | nil => exact fun s _ => by simp [insertAll]
  | cons member rest ih =>
    intro s hordered
    have hordered' : Keyed.Ordered (s.insert member.1 member.2).entries :=
      Keyed.ordered_update _ _ hordered
    have hrest : s.insertAll (member :: rest) = (s.insert member.1 member.2).insertAll rest := rfl
    rw [hrest, ih _ hordered', List.find?_cons]
    by_cases hkey : Text.lowercase member.1 = key
    · subst hkey
      rw [insert, Keyed.putNew, Keyed.lookup_update_self _ _ _ hordered, beq_self_eq_true]
      cases s.entries.lookup (Text.lowercase member.1) <;> rfl
    · rw [insert, Keyed.putNew, Keyed.lookup_update_of_ne (Ne.symm hkey),
        beq_eq_false_iff_ne.mpr hkey]

theorem mem_names_insert {s : FieldSet} {name n : String} {type : TypeExpr} :
    n ∈ (s.insert name type).names ↔ n = Text.lowercase name ∨ n ∈ s.names :=
  Keyed.mem_keys_update

/-- Where the names are in lower case, they are so with further members. -/
theorem lowercase_of_mem_insertAll (members : List (String × TypeExpr)) : ∀ s : FieldSet,
    (∀ n ∈ s.names, Text.lowercase n = n) →
    ∀ n ∈ (s.insertAll members).names, Text.lowercase n = n := by
  induction members with
  | nil => exact fun _ h => h
  | cons member rest ih =>
    refine fun s h => ih (s.insert member.1 member.2) fun n hn => ?_
    rcases mem_names_insert.mp hn with rfl | hn
    · exact Text.lowercase_lowercase _
    · exact h n hn

theorem ordered_insertAll (members : List (String × TypeExpr)) : ∀ s : FieldSet,
    Keyed.Ordered s.entries → Keyed.Ordered (s.insertAll members).entries := by
  induction members with
  | nil => exact fun _ h => h
  | cons member rest ih =>
    exact fun s h => ih (s.insert member.1 member.2) (Keyed.ordered_update _ _ h)

/-- Nothing is found under a key that is not in lower case. -/
theorem lookup_insertAll_of_lowercase_ne (members : List (String × TypeExpr)) {key : String}
    (hkey : Text.lowercase key ≠ key) : (empty.insertAll members).entries.lookup key = none := by
  rw [Keyed.lookup_eq_none_iff_notMem]
  exact fun hmem => hkey (lowercase_of_mem_insertAll members empty nofun key hmem)

/-- Field sets are equal when every look-up agrees, since their keys are in lower case. -/
theorem insertAll_eq {members members' : List (String × TypeExpr)}
    (h : ∀ key, (empty.insertAll members).get? key = (empty.insertAll members').get? key) :
    empty.insertAll members = empty.insertAll members' := by
  have hentries : (empty.insertAll members).entries = (empty.insertAll members').entries := by
    refine Keyed.ext (ordered_insertAll members empty .nil)
      (ordered_insertAll members' empty .nil) fun key => ?_
    by_cases hkey : Text.lowercase key = key
    · have hget := h key
      rwa [get?, get?, hkey] at hget
    · rw [lookup_insertAll_of_lowercase_ne members hkey,
        lookup_insertAll_of_lowercase_ne members' hkey]
  exact congrArg FieldSet.mk hentries

/-! ## Levels of embedded records -/

variable {types : List (String × TypeDecl)}

/-- The declared types that the types of a level embed, each once. -/
def nextLevel (types : List (String × TypeDecl)) (level : List String) : List String :=
  (level.flatMap fun name => ((types.lookup name).map TypeDecl.embeds).getD []).eraseDups

/-- The embedded types level by level, for at most `count` levels. -/
def levels (types : List (String × TypeDecl)) : Nat → List String → List (List String)
  | 0, _ => []
  | _ + 1, [] => []
  | count + 1, name :: level =>
    (name :: level) :: levels types count (nextLevel types (name :: level))

/-- The members that the declared types of a level add. -/
def levelMembers (types : List (String × TypeDecl)) (level : List String) :
    List (String × TypeExpr) :=
  level.flatMap fun name => ((types.lookup name).map TypeDecl.ownMembers).getD []

/-- The members of the record with the given name, its own and the promoted ones. Without a
cycle no chain of embedded records is longer than the list of declarations. -/
def ofStruct (types : List (String × TypeDecl)) (name : String) : FieldSet :=
  empty.insertAll ((levels types types.length [name]).flatMap (levelMembers types))

/-- The members of a record are named in lower case. -/
theorem lowercase_of_mem_ofStruct {types : List (String × TypeDecl)} {record n : String}
    (h : n ∈ (ofStruct types record).names) : Text.lowercase n = n :=
  lowercase_of_mem_insertAll _ empty nofun n h

/-- Levels are taken one by one; an empty one is followed by empty ones only. -/
theorem flatMap_levels (count : Nat) (level : List String) :
    (levels types (count + 1) level).flatMap (levelMembers types) =
      levelMembers types level ++
        (levels types count (nextLevel types level)).flatMap (levelMembers types) := by
  cases level with
  | nil => cases count <;> rfl
  | cons name rest => rfl

/-- The field set of a record depends only on what each name embeds and which members it adds, and
on how many declarations there are. -/
theorem ofStruct_congr_members {types' : List (String × TypeDecl)}
    (hembeds : ∀ name, (types'.lookup name).map TypeDecl.embeds =
      (types.lookup name).map TypeDecl.embeds)
    (hmembers : ∀ name, (types'.lookup name).map TypeDecl.ownMembers =
      (types.lookup name).map TypeDecl.ownMembers)
    (hlength : types'.length = types.length) (record : String) :
    ofStruct types' record = ofStruct types record := by
  have hnext : nextLevel types' = nextLevel types := by
    funext level
    simp only [nextLevel, hembeds]
  have hlevel : levelMembers types' = levelMembers types := by
    funext level
    simp only [levelMembers, hmembers]
  have hlevels : ∀ count level, levels types' count level = levels types count level := by
    intro count
    induction count with
    | zero => exact fun _ => rfl
    | succ count ih =>
      intro level
      cases level with
      | nil => rfl
      | cons name rest => rw [levels, levels, hnext, ih]
  rw [ofStruct, ofStruct, hlength, hlevels, hlevel]

/-- The field set of a record depends on what its names are declared as, not on the order of the
declarations. -/
theorem ofStruct_congr {types' : List (String × TypeDecl)}
    (hlookup : ∀ name, types'.lookup name = types.lookup name)
    (hlength : types'.length = types.length) (record : String) :
    ofStruct types' record = ofStruct types record :=
  ofStruct_congr_members (fun name => by rw [hlookup]) (fun name => by rw [hlookup]) hlength record

end FieldSet

end Fieldwise
