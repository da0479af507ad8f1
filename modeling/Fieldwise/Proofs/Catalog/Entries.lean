import Fieldwise.Catalog.Basic
import Fieldwise.Proofs.Catalog.Levels

/-!
# What a catalog knows of its declarations

* `Catalog.ofTypes` : the built-in scalars together with declared types, each with its field set.
* `Catalog.lookup_ofTypes` : a declared name has the entry of its declaration, and any other name
  that of the built-in scalars.
* `Catalog.lookup_builtins` : the built-in names stand for scalars.

A file lists each name once: `(types.map Prod.fst).Nodup`. Of a name listed twice a look-up would
see the first declaration and the catalog the last.
-/

set_option autoImplicit false

namespace Fieldwise

namespace Catalog

variable {types : List (String × TypeDecl)} {name : String}

/-- The entry of a declared type. -/
def declaredEntry (types : List (String × TypeDecl)) (entry : String × TypeDecl) :
    CatalogEntry :=
  match entry.2.underlying with
  | some underlying => .alias underlying
  | none => .struct (FieldSet.ofStruct types entry.1)

/-- The built-in scalars together with declared types. -/
def ofTypes (types : List (String × TypeDecl)) : Catalog :=
  ⟨types.foldl (fun entries entry => Keyed.put entry.1 (declaredEntry types entry) entries)
    builtins⟩

/-- The entries of all declared types together make the catalog of the types. -/
theorem extend_declaredEntry (types : List (String × TypeDecl)) :
    builtin.extend (types.map fun entry => (entry.1, declaredEntry types entry)) =
      ofTypes types := by
  rw [extend, ofTypes, List.foldl_map]
  rfl

theorem ordered_builtins : Keyed.Ordered builtins :=
  Keyed.ordered_putAll Prod.snd _ [] .nil

/-- The built-in names stand for scalars. -/
theorem lookup_builtins :
    builtins.lookup name = if name ∈ builtinScalars then some .scalar else none := by
  split
  · rename_i h
    have hall : ∀ n ∈ builtinScalars, builtins.lookup n = some .scalar := by decide
    exact hall name h
  · rename_i h
    have hall : ∀ n ∈ builtins.map Prod.fst, n ∈ builtinScalars := by decide
    exact Keyed.lookup_eq_none_iff_notMem.mpr fun hname => h (hall name hname)

/-- **A declared name has the entry of its declaration**, any other name that of the built-in
scalars. -/
theorem lookup_ofTypes (hnames : (types.map Prod.fst).Nodup) :
    (ofTypes types).entries.lookup name =
      ((types.lookup name).map fun decl => declaredEntry types (name, decl)).or
        (builtins.lookup name) :=
  Keyed.lookup_putAll (declaredEntry types) name types builtins ordered_builtins hnames

/-- The field set of a declared record. -/
theorem fieldSet?_ofTypes {decl : TypeDecl} (hnames : (types.map Prod.fst).Nodup)
    (hdecl : (name, decl) ∈ types) (hrecord : decl.underlying = none) :
    (ofTypes types).fieldSet? name = some (FieldSet.ofStruct types name) := by
  have hlookup := Keyed.lookup_eq_some_of_mem hnames hdecl
  simp [fieldSet?, lookup_ofTypes hnames, hlookup, declaredEntry, hrecord]

end Catalog

end Fieldwise
