import Fieldwise.Catalog.Acceptance
import Fieldwise.Catalog.FieldSet

/-!
# Members through embedded records

A record has its own members and those of the records that it embeds, unless a member of the same
name lies less deep. Of several equally deep ones the first that is met stays: own fields before
own methods, and the embedded records in the order of their fields.

`DepthFields.build` goes down into the embedded records. It remembers what it has found for each
record, so that a record which several others embed is gone through once, and it knows the records
that it is in the middle of: meeting one of them again is a circle.
-/

set_option autoImplicit false

namespace Fieldwise

/-- Members under names in lower case, in order, with the number of embedded fields that lead to
them. -/
structure DepthFields where
  entries : List (String × TypeExpr × Nat)
  deriving DecidableEq, Repr

namespace DepthFields

/-- No members. -/
def empty : DepthFields := ⟨[]⟩

/-- The member with the given name, in any letter case, and its depth. -/
def get? (s : DepthFields) (name : String) : Option (TypeExpr × Nat) :=
  s.entries.lookup (Text.lowercase name)

/-- Adds a member, unless one of the same name lies no deeper. -/
def insert (s : DepthFields) (name : String) (type : TypeExpr) (depth : Nat) : DepthFields :=
  match s.get? name with
  | some (_, present) =>
    if present ≤ depth then s
    else ⟨Keyed.put (Text.lowercase name) (type, depth) s.entries⟩
  | none => ⟨Keyed.put (Text.lowercase name) (type, depth) s.entries⟩

/-- The members that a record declares itself. -/
def ofOwn (decl : TypeDecl) : DepthFields :=
  decl.ownMembers.foldl (fun s member => s.insert member.1 member.2 0) empty

/-- Adds the members of an embedded record, each one step deeper. -/
def promote (s promoted : DepthFields) : DepthFields :=
  promoted.entries.foldl (fun s member => s.insert member.1 member.2.1 (member.2.2 + 1)) s

/-- The members without their depths. -/
def toFieldSet (s : DepthFields) : FieldSet :=
  FieldSet.empty.insertAll (s.entries.map fun member => (member.1, member.2.1))

/-! ## Going down -/

/-- The members of the records that are done. -/
abbrev Memo := List (String × DepthFields)

/-- Adds the members of embedded records one after another, each found by `visit`. -/
def promoteAll (visit : Memo → String → Except CatalogFault (DepthFields × Memo))
    (s : DepthFields) (done : Memo) : List String → Except CatalogFault (DepthFields × Memo)
  | [] => .ok (s, done)
  | target :: rest =>
    match visit done target with
    | .error e => .error e
    | .ok (promoted, done) => promoteAll visit (s.promote promoted) done rest

/-- Starting on a declared record leaves fewer that are not started on. -/
theorem length_unopened_lt {types : List (String × TypeDecl)} {inProgress : List String}
    {name : String} {decl : TypeDecl} (hdecl : types.lookup name = some decl)
    (hnew : ¬ inProgress.contains name = true) :
    (types.filter fun entry => !(inProgress ++ [name]).contains entry.1).length <
      (types.filter fun entry => !inProgress.contains entry.1).length := by
  have hfewer : (types.filter fun entry => !(inProgress ++ [name]).contains entry.1) =
      (types.filter fun entry => !inProgress.contains entry.1).filter fun entry =>
        !(entry.1 == name) := by
    rw [List.filter_filter]
    refine List.filter_congr fun entry _ => ?_
    rw [List.contains_append, Bool.not_or, Bool.and_comm, List.contains_cons, List.contains_nil,
      Bool.or_false]
  have hmem : (name, decl) ∈ types := by
    obtain ⟨before, behind, rfl, -⟩ := List.lookup_eq_some_iff.mp hdecl
    exact List.mem_append_right before List.mem_cons_self
  rw [hfewer, List.length_filter_lt_length_iff_exists]
  exact ⟨(name, decl), List.mem_filter.mpr ⟨hmem, by simpa using hnew⟩, by simp⟩

/-- The members of a record, its own and the promoted ones, and what is remembered then.
`inProgress` leads to the record. -/
def build (types : List (String × TypeDecl)) (inProgress : List String) (done : Memo)
    (name : String) : Except CatalogFault (DepthFields × Memo) :=
  match done.lookup name with
  | some fields => .ok (fields, done)
  | none =>
    if _ : inProgress.contains name then .error (.embeddingCycle inProgress name)
    else
      match _ : types.lookup name with
      | none => .error (.unknownType name "embedding")
      | some decl =>
        match promoteAll (build types (inProgress ++ [name]))
          (ofOwn decl) done decl.embeds with
        | .error e => .error e
        | .ok (fields, done) => .ok (fields, (name, fields) :: done)
termination_by (types.filter fun entry => !inProgress.contains entry.1).length
decreasing_by exact length_unopened_lt ‹_› ‹_›

end DepthFields

end Fieldwise
