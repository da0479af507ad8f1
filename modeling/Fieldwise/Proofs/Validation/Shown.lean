import Fieldwise.Check.Template
import Fieldwise.Proofs.Catalog.Following
import Fieldwise.Proofs.Template.Field
import Fieldwise.Proofs.Text.Lowercase
import Fieldwise.Proofs.Validation.Consistency

/-!
# Checking a shown field and listing members agree

The members of a type are searched for in one way when they are listed (`Catalog.members`), and a
field that a template shows is looked up in another way when the template is checked
(`Catalog.settle`). In an accepted catalog the two agree on every type.

* `Catalog.entry_of_settle` : a record behind pointers and other names is that of a known name.
* `Closed.mismatches_field` : the walk of a lone field finds nothing exactly if the field is a
  member.
* `Catalog.checkTemplate_showField` : the template that shows a field is valid exactly if the field
  is listed.
-/

set_option autoImplicit false

namespace Fieldwise

/-- A member has a name exactly if the name in lower case is listed. -/
theorem FieldSet.isSome_get?_iff (fields : FieldSet) (name : String) :
    (fields.get? name).isSome = true ↔ Text.lowercase name ∈ fields.names := by
  rw [get?, names, ← not_iff_not, Bool.not_eq_true, Option.isSome_eq_false_iff,
    Option.isNone_iff_eq_none, Keyed.lookup_eq_none_iff_notMem]

/-- Only a record has members. -/
theorem SettledShape.members_eq_ok_iff (shape : SettledShape) (fields : FieldSet) :
    shape.members = .ok fields ↔ shape = .struct fields := by
  cases shape <;> simp [members]

namespace Catalog

variable {c : Catalog}

/-- A record behind pointers and other names is the record of a known name. -/
theorem entry_of_settleWithin {fields : FieldSet} : ∀ (fuel : Nat) (type : TypeExpr),
    c.settleWithin fuel type = .struct fields →
    ∃ name, c.entries.lookup name = some (.struct fields)
  | fuel, type, h => by
    rw [settleWithin_eq] at h
    split at h
    · next name _ =>
      split at h
      · cases h
      · cases h
      · next hentry =>
        cases h
        exact ⟨name, hentry⟩
      · cases fuel with
        | zero => cases h
        | succ fuel => exact entry_of_settleWithin fuel _ h
    · cases h
    · cases h
    · cases h
    · cases h

theorem entry_of_settle {type : TypeExpr} {fields : FieldSet} (h : c.settle type = .struct fields) :
    ∃ name, c.entries.lookup name = some (.struct fields) :=
  entry_of_settleWithin _ _ h

namespace Closed

/-- **The walk of a lone field finds nothing exactly if the field is a member.** What type the
member has does not matter: nothing is asked of it. -/
theorem mismatches_field (hc : c.Closed) (suggest : Suggester) (path : List Step)
    (type : TypeExpr) (key : String) :
    c.mismatches suggest path type (.ofPath [.field key]) = [] ↔
      ∃ fields, c.settle type = .struct fields ∧ (fields.get? key).isSome = true := by
  have hleaf : (CallTree.node none (some [(key, .empty)])).isLeaf = false := rfl
  rw [CallTree.ofPath_field, CallTree.ofPath_nil, mismatches_eq, hleaf]
  cases hsettle : c.settle type with
  | struct known =>
    simp only [CallTree.element_node, CallTree.members, CallTree.fields_node, Option.isSome_none,
      Bool.false_eq_true, if_false, Option.getD_some, List.flatMap_singleton, entryMismatches,
      SettledShape.struct.injEq, exists_eq_left']
    cases hmember : known.get? key with
    | none => simp
    | some member =>
      obtain ⟨name, hentry⟩ := entry_of_settle hsettle
      have hknown : c.Knows member := hc.member_known name known key member hentry hmember
      simp [hc.mismatches_empty suggest _ hknown]
  | _ => simp [CallTree.members]

end Closed

/-- **A template that shows a field is valid exactly if the field is listed** among the members of
the type. Where nothing is listed, because the type is no record or is not known, no field can be
shown. -/
theorem checkTemplate_showField {file : CatalogFile} {c : Catalog}
    (hfile : Catalog.ofFile file = .ok c) (hnames : (file.types.map Prod.fst).Nodup)
    (suggest : Suggester) (type : TypeExpr) {name : String} (hname : IsFieldName name) :
    ∃ v, c.checkTemplate suggest (showField name) type = .ok v ∧
      (v.isValid = true ↔
        ∃ fields, c.members type = .ok fields ∧ Text.lowercase name ∈ fields.names) ∧
      ∀ reason, c.members type = .error reason → v.isValid = false := by
  obtain ⟨w, rfl⟩ := of_ofFile hfile
  have hc := closed_ofTypes w hnames
  have hvalid :
      ((ofTypes file.types).validate suggest (.ofPath [.named name]) type).isValid = true ↔
        ∃ fields, (ofTypes file.types).members type = .ok fields ∧
          Text.lowercase name ∈ fields.names := by
    rw [isValid_validate_iff, Step.named, hc.mismatches_field, hc.members_eq_settle]
    simp only [FieldSet.isSome_get?_iff, Text.lowercase_lowercase, SettledShape.members_eq_ok_iff]
  refine ⟨_, by rw [checkTemplate, CallTree.ofSource_field hname], hvalid, fun reason hreason => ?_⟩
  rw [← Bool.not_eq_true, hvalid, hreason]
  rintro ⟨fields, hfields, -⟩
  cases hfields

/-- A member that another record promotes, behind two names and pointers, and a type without
members. -/
theorem checkTemplate_showField_promoted :
    let file : CatalogFile :=
      ⟨[("Base", ⟨none, [⟨"Title_2", .named "string", false⟩], []⟩),
        ("Link", ⟨some (.pointer (.named "Page")), [], []⟩),
        ("Page", ⟨none, [⟨"Base", .named "Base", true⟩], []⟩)]⟩
    ∃ c, Catalog.ofFile file = .ok c ∧ (file.types.map Prod.fst).Nodup ∧ IsFieldName "TITLE_2" ∧
      (∃ v, c.checkTemplate noSuggestion (showField "TITLE_2") (.pointer (.named "Link")) = .ok v ∧
        v.isValid = true) ∧
      ∃ v, c.checkTemplate noSuggestion (showField "TITLE_2") (.slice (.named "Page")) = .ok v ∧
        v.isValid = false := by
  intro file
  have hfile : Catalog.ofFile file = .ok (ofTypes file.types) :=
    ofFile_of_isOk (by decide +kernel)
  have hnames : (file.types.map Prod.fst).Nodup := by decide
  have hname : IsFieldName "TITLE_2" := by decide
  obtain ⟨w, -⟩ := of_ofFile hfile
  have hc := closed_ofTypes w hnames
  have hlink : (ofTypes file.types).Renames (.named "Link") (.pointer (.named "Page")) :=
    ⟨"Link", rfl, by rw [lookup_ofTypes hnames]; rfl⟩
  have hmembers : (ofTypes file.types).members (.pointer (.named "Link")) =
      .ok (.ofStruct file.types "Page") := by
    rw [hc.members_eq_settle, settle_pointer, hc.settle_of_renames hlink, settle_pointer,
      settle_record hnames rfl rfl, SettledShape.members]
  have hlist : (ofTypes file.types).members (.slice (.named "Page")) = .error .list := by
    rw [hc.members_eq_settle, settle_slice, SettledShape.members]
  obtain ⟨v, hv, hvalid, -⟩ :=
    checkTemplate_showField hfile hnames noSuggestion (.pointer (.named "Link")) hname
  obtain ⟨v', hv', -, hinvalid⟩ :=
    checkTemplate_showField hfile hnames noSuggestion (.slice (.named "Page")) hname
  exact ⟨_, hfile, hnames, hname, ⟨v, hv, hvalid.mpr ⟨_, hmembers, by decide⟩⟩, v', hv',
    hinvalid .list hlist⟩

end Catalog

end Fieldwise
