import Fieldwise.Proofs.Catalog.Circles
import Fieldwise.Proofs.Validation.Closure

/-!
# Pointers do not matter

* `TypeExpr.erase`, `CatalogFile.erase` : a type, or all types of a file, without pointers.
* `CatalogFile.check_erase` : the file without pointers has the same fault, or none.
* `Catalog.ofTypes_erase` : its catalog is the catalog of the file, without pointers.
* `Catalog.settle_erase`, `Catalog.mismatches_erase` : nor do a type and its shape in the one
  catalog and in the other differ further, so that the walk reports the same.
* `Catalog.validate_erase` : the two files are accepted alike and their verdicts are the same.

Erasing is a map over the data and each step of a check or of the walk commutes with it. Pointers
are dropped where a step looks behind them, which `targetName?_erase` and `stripPointers_erase` say.
-/

set_option autoImplicit false

namespace Fieldwise

/-! ## Erasing pointers -/

namespace TypeExpr

/-- The type without its pointers, at any depth. -/
def erase : TypeExpr → TypeExpr
  | named name => named name
  | pointer target => target.erase
  | slice element => slice element.erase
  | array length element => array length element.erase
  | map key value => map key.erase value.erase

@[simp] theorem names_erase : ∀ type : TypeExpr, type.erase.names = type.names
  | named _ => rfl
  | pointer target => target.names_erase
  | slice element => element.names_erase
  | array _ element => element.names_erase
  | map key value => by rw [erase, names, names, key.names_erase, value.names_erase]

/-- Behind the leading pointers there are others to erase, but none of them leads. -/
theorem stripPointers_erase : ∀ type : TypeExpr,
    type.erase.stripPointers = type.stripPointers.erase
  | named _ => rfl
  | pointer target => target.stripPointers_erase
  | slice _ => rfl
  | array _ _ => rfl
  | map _ _ => rfl

@[simp] theorem targetName?_erase (type : TypeExpr) :
    type.erase.targetName? = type.targetName? := by
  rw [targetName?, targetName?, stripPointers_erase]
  cases h : type.stripPointers with
  | pointer target => exact absurd h (stripPointers_ne_pointer type target)
  | _ => rfl

end TypeExpr

/-- The field with its type erased. -/
def FieldDecl.erase (f : FieldDecl) : FieldDecl :=
  { f with type := f.type.erase }

/-- The method with its types erased. -/
def MethodDecl.erase (m : MethodDecl) : MethodDecl :=
  { m with params := m.params.map TypeExpr.erase, results := m.results.map TypeExpr.erase }

/-- The declaration with its types erased. -/
def TypeDecl.erase (decl : TypeDecl) : TypeDecl :=
  ⟨decl.underlying.map TypeExpr.erase, decl.fields.map FieldDecl.erase,
    decl.methods.map MethodDecl.erase⟩

/-- The values under all keys changed. -/
def Keyed.mapValues {α β : Type} (g : α → β) (entries : List (String × α)) : List (String × β) :=
  entries.map fun entry => (entry.1, g entry.2)

/-- The file with all its types erased. -/
def CatalogFile.erase (file : CatalogFile) : CatalogFile :=
  ⟨Keyed.mapValues TypeDecl.erase file.types⟩

/-- The members with their types erased. -/
def FieldSet.erase (s : FieldSet) : FieldSet :=
  ⟨Keyed.mapValues TypeExpr.erase s.entries⟩

/-- The entry with its types erased. -/
def CatalogEntry.erase : CatalogEntry → CatalogEntry
  | scalar => scalar
  | .alias underlying => .alias underlying.erase
  | struct fields => struct fields.erase

/-- The catalog with all its types erased. -/
def Catalog.erase (c : Catalog) : Catalog :=
  ⟨Keyed.mapValues CatalogEntry.erase c.entries⟩

/-- The shape with its types erased. -/
def SettledShape.erase : SettledShape → SettledShape
  | unknown name => unknown name
  | scalar => scalar
  | struct fields => struct fields.erase
  | slice element => slice element.erase
  | map key value => map key.erase value.erase

/-- The fault with its types erased. -/
def CatalogFault.erase : CatalogFault → CatalogFault
  | unnamedField owner type => unnamedField owner type.erase
  | embeddedNotStruct field owner type => embeddedNotStruct field owner type.erase
  | fault => fault

/-! ## Keyed lists -/

namespace Keyed

variable {α β : Type} (g : α → β)

theorem lookup_mapValues (key : String) : ∀ entries : List (String × α),
    (mapValues g entries).lookup key = (entries.lookup key).map g
  | [] => rfl
  | (k, v) :: rest => by
    have ih := lookup_mapValues key rest
    rw [mapValues, List.map_cons, List.lookup_cons, List.lookup_cons]
    cases key == k with
    | true => rfl
    | false => exact ih

theorem keys_mapValues (entries : List (String × α)) :
    (mapValues g entries).map Prod.fst = entries.map Prod.fst := by
  rw [mapValues, List.map_map]
  rfl

theorem mapValues_flatMap {γ : Type} (f : γ → List (String × α)) (xs : List γ) :
    mapValues g (xs.flatMap f) = xs.flatMap fun x => mapValues g (f x) :=
  List.map_flatMap

/-- An update of changed values is a change of the update, where the new values correspond. -/
theorem update_mapValues {f : Option α → α} {f' : Option β → β} (key : String)
    (hf : ∀ present, f' (present.map g) = g (f present)) : ∀ entries : List (String × α),
    update key f' (mapValues g entries) = mapValues g (update key f entries)
  | [] => by
    have hnone : f' none = g (f none) := hf none
    rw [mapValues, List.map_nil, update, update, hnone]
    rfl
  | (k, v) :: rest => by
    have hnone : f' none = g (f none) := hf none
    have hsome : f' (some (g v)) = g (f (some v)) := hf (some v)
    have ih := update_mapValues key hf rest
    rw [mapValues, List.map_cons, update, update]
    split
    · rw [hsome]
      rfl
    · split
      · rw [hnone]
        rfl
      · exact congrArg (_ :: ·) ih

end Keyed

/-! ## Declarations -/

@[simp] theorem FieldDecl.fieldName_erase (f : FieldDecl) : f.erase.fieldName = f.fieldName := by
  rw [fieldName, fieldName, erase, TypeExpr.targetName?_erase]

theorem MethodDecl.templateResult?_erase (m : MethodDecl) :
    m.erase.templateResult? = m.templateResult?.map TypeExpr.erase := by
  obtain ⟨name, params, results⟩ := m
  rcases params with _ | ⟨param, params⟩ <;>
    rcases results with _ | ⟨first, _ | ⟨second, results⟩⟩ <;> rfl

namespace TypeDecl

theorem isStruct_erase (decl : TypeDecl) : decl.erase.isStruct = decl.isStruct := by
  rw [isStruct, isStruct, erase, Option.isNone_map]

theorem embeds_erase (decl : TypeDecl) : decl.erase.embeds = decl.embeds := by
  have hembedded : FieldDecl.embedded ∘ FieldDecl.erase = FieldDecl.embedded := rfl
  rw [embeds, embeds, erase, List.filter_map, hembedded, List.filterMap_map]
  refine List.filterMap_congr fun f _ => ?_
  exact f.type.targetName?_erase

/-- The members of an erased declaration are erased. -/
theorem ownMembers_erase (decl : TypeDecl) :
    decl.erase.ownMembers = Keyed.mapValues TypeExpr.erase decl.ownMembers := by
  have hvisible : FieldDecl.isVisible ∘ FieldDecl.erase = FieldDecl.isVisible := by
    funext f
    rw [Function.comp, FieldDecl.isVisible, FieldDecl.isVisible, FieldDecl.fieldName_erase]
    rfl
  have hexported : (fun m : MethodDecl => isExported m.name) ∘ MethodDecl.erase =
      fun m : MethodDecl => isExported m.name := rfl
  rw [ownMembers, ownMembers, erase, List.filter_map, hvisible, List.filter_map, hexported,
    Keyed.mapValues, List.map_append, List.map_map, List.map_map, List.filterMap_map,
    List.map_filterMap]
  congr 1
  · refine List.map_congr_left fun f _ => ?_
    exact congrArg (·, f.type.erase) f.fieldName_erase
  · refine List.filterMap_congr fun m _ => ?_
    rw [Function.comp, m.templateResult?_erase, Option.map_map, Option.map_map]
    rfl

end TypeDecl

/-! ## Accepted files -/

namespace CatalogFile

/-- The check of an erased thing gives the erased fault. -/
theorem checkEach_map {α β : Type} {check : α → Except CatalogFault Unit}
    {check' : β → Except CatalogFault Unit} {g : α → β}
    (h : ∀ x, check' (g x) = (check x).mapError CatalogFault.erase) : ∀ xs : List α,
    checkEach check' (xs.map g) = (checkEach check xs).mapError CatalogFault.erase
  | [] => rfl
  | x :: xs => by
    have ih := checkEach_map h xs
    rw [List.map_cons, checkEach, checkEach, h x]
    cases check x with
    | error e => rfl
    | ok _ => exact ih

theorem checkNamed_erase (owner : String) (f : FieldDecl) :
    checkNamed owner f.erase = (checkNamed owner f).mapError CatalogFault.erase := by
  rw [checkNamed, checkNamed, FieldDecl.erase]
  split
  · rfl
  · rfl

/-- An entry with its declaration erased. -/
def eraseEntry (entry : String × TypeDecl) : String × TypeDecl :=
  (entry.1, entry.2.erase)

theorem checkForm_erase (entry : String × TypeDecl) :
    checkForm (eraseEntry entry) = (checkForm entry).mapError CatalogFault.erase := by
  obtain ⟨name, decl⟩ := entry
  have hfields := checkEach_map (checkNamed_erase name) decl.fields
  simp only [checkForm, eraseEntry, TypeDecl.erase, Option.isSome_map, List.isEmpty_map]
  split
  · rfl
  · split
    · rfl
    · exact hfields

/-! ### Names that are mentioned -/

variable (types : List (String × TypeDecl))

theorem isKnown_erase (name : String) :
    isKnown (Keyed.mapValues TypeDecl.erase types) name = isKnown types name := by
  rw [isKnown, isKnown, Keyed.contains, Keyed.contains, Keyed.lookup_mapValues, Option.isSome_map]

theorem isDeclaredStruct_erase :
    isDeclaredStruct (Keyed.mapValues TypeDecl.erase types) = isDeclaredStruct types := by
  funext name
  rw [isDeclaredStruct, isDeclaredStruct, Keyed.lookup_mapValues, Option.map_map]
  congr 2
  funext decl
  exact decl.isStruct_erase

theorem checkKnown_erase (referencedBy : String) (type : TypeExpr) :
    checkKnown (Keyed.mapValues TypeDecl.erase types) referencedBy type.erase =
      (checkKnown types referencedBy type).mapError CatalogFault.erase := by
  rw [checkKnown, checkKnown, TypeExpr.names_erase]
  have hnames : type.names = type.names.map id := (List.map_id _).symm
  refine (congrArg (checkEach _) hnames).trans (checkEach_map (fun name => ?_) type.names)
  rw [id, isKnown_erase]
  split
  · rfl
  · rfl

theorem checkField_erase (owner : String) (f : FieldDecl) :
    checkField (Keyed.mapValues TypeDecl.erase types) owner f.erase =
      (checkField types owner f).mapError CatalogFault.erase := by
  have hknown := checkKnown_erase types (owner ++ "." ++ f.fieldName) f.type
  have htype : f.erase.type = f.type.erase := rfl
  have hembedded : f.erase.embedded = f.embedded := rfl
  rw [checkField, checkField, FieldDecl.fieldName_erase, htype, hknown, hembedded,
    TypeExpr.targetName?_erase, isDeclaredStruct_erase]
  cases checkKnown types (owner ++ "." ++ f.fieldName) f.type with
  | error e => rfl
  | ok _ =>
    simp only [Except.mapError]
    split
    · rfl
    · rfl

theorem checkMethod_erase (owner : String) (m : MethodDecl) :
    checkMethod (Keyed.mapValues TypeDecl.erase types) owner m.erase =
      (checkMethod types owner m).mapError CatalogFault.erase := by
  rw [checkMethod, checkMethod, MethodDecl.erase, ← List.map_append]
  exact checkEach_map (checkKnown_erase types (owner ++ "." ++ m.name ++ "()")) _

theorem checkReferences_erase (entry : String × TypeDecl) :
    checkReferences (Keyed.mapValues TypeDecl.erase types) (eraseEntry entry) =
      (checkReferences types entry).mapError CatalogFault.erase := by
  obtain ⟨name, decl⟩ := entry
  have hunderlying : (decl.underlying.map TypeExpr.erase).toList =
      decl.underlying.toList.map TypeExpr.erase := by
    cases decl.underlying <;> rfl
  simp only [checkReferences, eraseEntry, TypeDecl.erase, hunderlying,
    checkEach_map (checkKnown_erase types name), checkEach_map (checkField_erase types name),
    checkEach_map (checkMethod_erase types name)]
  cases checkEach (checkKnown types name) decl.underlying.toList with
  | error e => rfl
  | ok _ =>
    cases checkEach (checkField types name) decl.fields with
    | error e => rfl
    | ok _ => rfl

/-! ### Circles -/

theorem underlyingName?_erase (name : String) :
    underlyingName? (Keyed.mapValues TypeDecl.erase types) name = underlyingName? types name := by
  rw [underlyingName?, underlyingName?, Keyed.lookup_mapValues]
  cases types.lookup name with
  | none => rfl
  | some decl =>
    cases h : decl.underlying with
    | none => simp [TypeDecl.erase, h]
    | some underlying => simp [TypeDecl.erase, h]

theorem followUnderlying_erase : ∀ (fuel : Nat) (seen : List String) (current : String),
    followUnderlying (Keyed.mapValues TypeDecl.erase types) fuel seen current =
      (followUnderlying types fuel seen current).mapError CatalogFault.erase
  | 0, _, _ => rfl
  | fuel + 1, seen, current => by
    rw [followUnderlying, followUnderlying, underlyingName?_erase]
    cases underlyingName? types current with
    | none => rfl
    | some next =>
      simp only
      split
      · rfl
      · exact followUnderlying_erase fuel (seen ++ [next]) next

theorem embedded_erase (name : String) :
    (((Keyed.mapValues TypeDecl.erase types).lookup name).map TypeDecl.embeds).getD [] =
      ((types.lookup name).map TypeDecl.embeds).getD [] := by
  rw [Keyed.lookup_mapValues, Option.map_map]
  congr 2
  funext decl
  exact decl.embeds_erase

theorem embeds_erase : Embeds (Keyed.mapValues TypeDecl.erase types) = Embeds types := by
  funext a b
  simp only [Embeds, Keyed.lookup_mapValues, Option.map_eq_some_iff]
  refine propext ⟨?_, ?_⟩
  · rintro ⟨_, _, ⟨decl, hlookup, rfl⟩, hrecord, hmem, hembedded, htarget⟩
    obtain ⟨f, hf, rfl⟩ := List.mem_map.mp hmem
    rw [FieldDecl.erase, TypeExpr.targetName?_erase] at htarget
    exact ⟨decl, f, hlookup, Option.map_eq_none_iff.mp hrecord, hf, hembedded, htarget⟩
  · rintro ⟨decl, f, hlookup, hrecord, hf, hembedded, htarget⟩
    refine ⟨decl.erase, f.erase, ⟨decl, hlookup, rfl⟩, Option.map_eq_none_iff.mpr hrecord,
      List.mem_map_of_mem hf, hembedded, ?_⟩
    rw [FieldDecl.erase, TypeExpr.targetName?_erase]
    exact htarget

/-- **The file without pointers has the same fault**, its types erased, or none. -/
theorem check_erase (file : CatalogFile) :
    file.erase.check = file.check.mapError CatalogFault.erase := by
  obtain ⟨types⟩ := file
  have hlength : (Keyed.mapValues TypeDecl.erase types).length = types.length := List.length_map _
  have hunderlying : ∀ entry : String × TypeDecl,
      checkUnderlying (Keyed.mapValues TypeDecl.erase types) (eraseEntry entry) =
        (checkUnderlying types entry).mapError CatalogFault.erase := fun entry => by
    rw [checkUnderlying, checkUnderlying, hlength]
    exact followUnderlying_erase types _ _ _
  have hforms := checkEach_map checkForm_erase types
  have hreferences := checkEach_map (checkReferences_erase types) types
  have hchains := checkEach_map hunderlying types
  have hentries : types.map eraseEntry = Keyed.mapValues TypeDecl.erase types := rfl
  rw [hentries] at hforms hreferences hchains
  rw [check, check, erase]
  simp only [hforms, hreferences, hchains]
  cases checkEach checkForm types with
  | error e => rfl
  | ok _ =>
    cases checkEach (checkReferences types) types with
    | error e => rfl
    | ok _ => rfl

end CatalogFile

/-! ## The members of a record -/

namespace FieldSet

theorem get?_erase (s : FieldSet) (key : String) :
    s.erase.get? key = (s.get? key).map TypeExpr.erase :=
  Keyed.lookup_mapValues TypeExpr.erase _ s.entries

@[simp] theorem names_erase (s : FieldSet) : s.erase.names = s.names :=
  Keyed.keys_mapValues TypeExpr.erase s.entries

theorem insert_erase (s : FieldSet) (name : String) (type : TypeExpr) :
    s.erase.insert name type.erase = (s.insert name type).erase := by
  have hvalue : ∀ present : Option TypeExpr,
      (present.map TypeExpr.erase).getD type.erase = (present.getD type).erase := by
    intro present
    cases present <;> rfl
  rw [insert, insert, erase, erase, Keyed.putNew, Keyed.putNew,
    Keyed.update_mapValues TypeExpr.erase _ hvalue]

theorem insertAll_erase (members : List (String × TypeExpr)) : ∀ s : FieldSet,
    s.erase.insertAll (Keyed.mapValues TypeExpr.erase members) = (s.insertAll members).erase := by
  induction members with
  | nil => exact fun _ => rfl
  | cons member rest ih =>
    intro s
    have hfirst := s.insert_erase member.1 member.2
    have hrest := ih (s.insert member.1 member.2)
    rw [← hfirst] at hrest
    exact hrest

variable (types : List (String × TypeDecl))

theorem nextLevel_erase (level : List String) :
    nextLevel (Keyed.mapValues TypeDecl.erase types) level = nextLevel types level := by
  rw [nextLevel, nextLevel]
  simp only [CatalogFile.embedded_erase]

theorem levels_erase : ∀ (count : Nat) (level : List String),
    levels (Keyed.mapValues TypeDecl.erase types) count level = levels types count level
  | 0, _ => rfl
  | _ + 1, [] => rfl
  | count + 1, name :: level => by
    rw [levels, levels, nextLevel_erase, levels_erase count]

theorem levelMembers_erase (level : List String) :
    levelMembers (Keyed.mapValues TypeDecl.erase types) level =
      Keyed.mapValues TypeExpr.erase (levelMembers types level) := by
  rw [levelMembers, levelMembers, Keyed.mapValues_flatMap]
  refine List.flatMap_congr fun name _ => ?_
  rw [Keyed.lookup_mapValues]
  cases types.lookup name with
  | none => rfl
  | some decl => exact decl.ownMembers_erase

/-- The members of a record of an erased file are erased. -/
theorem ofStruct_erase (name : String) :
    ofStruct (Keyed.mapValues TypeDecl.erase types) name = (ofStruct types name).erase := by
  have hlength : (Keyed.mapValues TypeDecl.erase types).length = types.length := List.length_map _
  have hmembers : ((levels types types.length [name]).flatMap
      (levelMembers (Keyed.mapValues TypeDecl.erase types))) =
      Keyed.mapValues TypeExpr.erase
        ((levels types types.length [name]).flatMap (levelMembers types)) := by
    rw [Keyed.mapValues_flatMap]
    exact List.flatMap_congr fun level _ => levelMembers_erase types level
  rw [ofStruct, hlength, levels_erase, hmembers]
  exact insertAll_erase _ empty

end FieldSet

/-! ## Catalogs -/

namespace Catalog

theorem declaredEntry_erase (types : List (String × TypeDecl)) (entry : String × TypeDecl) :
    declaredEntry (Keyed.mapValues TypeDecl.erase types) (entry.1, entry.2.erase) =
      (declaredEntry types entry).erase := by
  rw [declaredEntry, declaredEntry, FieldSet.ofStruct_erase]
  cases h : entry.2.underlying with
  | none => simp [TypeDecl.erase, h, CatalogEntry.erase]
  | some underlying => simp [TypeDecl.erase, h, CatalogEntry.erase]

/-- **The catalog of an erased file is the erased catalog.** -/
theorem ofTypes_erase (types : List (String × TypeDecl)) :
    ofTypes (Keyed.mapValues TypeDecl.erase types) = (ofTypes types).erase := by
  have hbuiltins : Keyed.mapValues CatalogEntry.erase builtins = builtins := by decide
  have hputs : ∀ (xs : List (String × TypeDecl)) (entries : List (String × CatalogEntry)),
      (Keyed.mapValues TypeDecl.erase xs).foldl (fun entries entry =>
          Keyed.put entry.1 (declaredEntry (Keyed.mapValues TypeDecl.erase types) entry) entries)
        (Keyed.mapValues CatalogEntry.erase entries) =
      Keyed.mapValues CatalogEntry.erase
        (xs.foldl (fun entries entry => Keyed.put entry.1 (declaredEntry types entry) entries)
          entries) := by
    intro xs
    induction xs with
    | nil => exact fun _ => rfl
    | cons x rest ih =>
      intro entries
      have hput : Keyed.put x.1
          (declaredEntry (Keyed.mapValues TypeDecl.erase types) (x.1, x.2.erase))
          (Keyed.mapValues CatalogEntry.erase entries) =
          Keyed.mapValues CatalogEntry.erase (Keyed.put x.1 (declaredEntry types x) entries) := by
        rw [declaredEntry_erase]
        exact Keyed.update_mapValues CatalogEntry.erase _ (fun _ => rfl) entries
      have hrest := ih (Keyed.put x.1 (declaredEntry types x) entries)
      rw [← hput] at hrest
      exact hrest
  have hall := hputs types builtins
  rw [hbuiltins] at hall
  rw [ofTypes, ofTypes, erase, hall]

variable (c : Catalog)

/-- The shape of an erased type in the erased catalog is erased. -/
theorem settleWithin_erase (fuel : Nat) : ∀ type : TypeExpr,
    c.erase.settleWithin fuel type.erase = (c.settleWithin fuel type).erase := by
  have hlookup : ∀ name, c.erase.entries.lookup name =
      (c.entries.lookup name).map CatalogEntry.erase := fun name =>
    Keyed.lookup_mapValues CatalogEntry.erase name c.entries
  induction fuel with
  | zero =>
    intro type
    rw [settleWithin.eq_def, settleWithin.eq_def, TypeExpr.stripPointers_erase]
    cases h : type.stripPointers with
    | named name =>
      simp only [TypeExpr.erase, hlookup]
      rcases c.entries.lookup name with _ | _ | _ | _ <;> rfl
    | pointer target => exact absurd h (type.stripPointers_ne_pointer target)
    | _ => rfl
  | succ fuel ih =>
    intro type
    rw [settleWithin.eq_def, settleWithin.eq_def, TypeExpr.stripPointers_erase]
    cases h : type.stripPointers with
    | named name =>
      simp only [TypeExpr.erase, hlookup]
      rcases c.entries.lookup name with _ | _ | underlying | _
      · rfl
      · rfl
      · exact ih underlying
      · rfl
    | pointer target => exact absurd h (type.stripPointers_ne_pointer target)
    | _ => rfl

theorem settle_erase (type : TypeExpr) : c.erase.settle type.erase = (c.settle type).erase := by
  have hlength : c.erase.entries.length = c.entries.length := List.length_map _
  rw [settle, settle, hlength, settleWithin_erase]

/-- A field is looked up among the erased members, with the same result. -/
theorem entryMismatches_erase (suggest : Suggester) (path : List Step) (known : FieldSet)
    {entry : String × CallTree}
    (h : ∀ path type, c.erase.mismatches suggest path type.erase entry.2 =
      c.mismatches suggest path type entry.2) :
    c.erase.entryMismatches suggest path known.erase entry =
      c.entryMismatches suggest path known entry := by
  obtain ⟨key, t⟩ := entry
  rw [entryMismatches, entryMismatches, FieldSet.get?_erase]
  cases known.get? key with
  | none =>
    simp only [Option.map_none, missingField, FieldSet.names_erase]
  | some type => exact h _ type

/-- **The walk reports the same** on an erased type in the erased catalog. -/
theorem mismatches_erase (suggest : Suggester) (t : CallTree) : ∀ (path : List Step)
    (type : TypeExpr),
    c.erase.mismatches suggest path type.erase t = c.mismatches suggest path type t := by
  induction t with
  | step t ihElement ihMembers =>
    intro path type
    rw [mismatches_eq, mismatches_eq, settle_erase]
    have helement : ∀ e ∈ t.element.toList, ∀ path type,
        c.erase.mismatches suggest path type.erase e = c.mismatches suggest path type e :=
      fun e he => ihElement e (Option.mem_toList.mp he)
    cases c.settle type with
    | unknown name => rfl
    | scalar => rfl
    | slice inner =>
      simp only [SettledShape.erase]
      rw [List.flatMap_congr fun e he => helement e he _ inner]
    | map key value =>
      simp only [SettledShape.erase]
      rw [List.flatMap_congr fun e he => by rw [helement e he _ key, helement e he _ value]]
    | struct known =>
      simp only [SettledShape.erase]
      rw [List.flatMap_congr fun entry hentry =>
        c.entryMismatches_erase suggest path known (ihMembers entry hentry)]

/-- **Pointers are transparent.** A catalog file is accepted exactly if it is without its pointers,
and every tree has the same verdict against a type in the one catalog and against the type without
its pointers in the other: the same mismatches, in the same order. -/
theorem validate_erase (file : CatalogFile) :
    ((∃ c, Catalog.ofFile file = .ok c) ↔ ∃ c, Catalog.ofFile file.erase = .ok c) ∧
      ∀ c c', Catalog.ofFile file = .ok c → Catalog.ofFile file.erase = .ok c' →
        ∀ (suggest : Suggester) (t : CallTree) (type : TypeExpr),
          c.validate suggest t type = c'.validate suggest t type.erase := by
  refine ⟨?_, fun c c' hc hc' suggest t type => ?_⟩
  · rw [ofFile_ok_iff, ofFile_ok_iff, ← CatalogFile.check_ok_iff,
      ← CatalogFile.check_ok_iff, file.check_erase, mapError_eq_ok_iff, CatalogFile.erase,
      CatalogFile.embeds_erase]
  · obtain ⟨-, rfl⟩ := of_ofFile hc
    obtain ⟨-, rfl⟩ := of_ofFile hc'
    rw [validate_eq, validate_eq, CatalogFile.erase, ofTypes_erase, mismatches_erase]

/-- A record that embeds a pointer to another one and points to itself, behind another name. -/
theorem validate_erase_nodes :
    let file : CatalogFile :=
      ⟨[("Base", ⟨none, [⟨"Names", .slice (.pointer (.named "string")), false⟩], []⟩),
        ("Link", ⟨some (.pointer (.pointer (.named "Node"))), [], []⟩),
        ("Node", ⟨none, [⟨"", .pointer (.named "Base"), true⟩, ⟨"Next", .named "Link", false⟩],
          [⟨"All", [], [.map (.named "string") (.pointer (.named "Link"))]⟩]⟩)]⟩
    ∃ c c', Catalog.ofFile file = .ok c ∧ Catalog.ofFile file.erase = .ok c' ∧
      ∀ (suggest : Suggester) (t : CallTree), c.validate suggest t (.pointer (.named "Link")) =
        c'.validate suggest t (.named "Link") := by
  intro file
  obtain ⟨haccepted, hsame⟩ := validate_erase file
  have hc : ∃ c, Catalog.ofFile file = .ok c := ⟨_, ofFile_of_isOk (by decide +kernel)⟩
  obtain ⟨c', hc'⟩ := haccepted.mp hc
  obtain ⟨c, hc⟩ := hc
  exact ⟨c, c', hc, hc', fun suggest t => hsame c c' hc hc' suggest t (.pointer (.named "Link"))⟩

end Catalog

end Fieldwise
