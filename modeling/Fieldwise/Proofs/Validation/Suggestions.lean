import Fieldwise.Proofs.Validation.Shown
import Fieldwise.Proofs.Validation.Termination
import Mathlib.Data.List.MinMax

/-!
# What suggestions say and what they leave alone

* `closest_eq_argmax` : of the names that reach the threshold, the search finds the first of those
  that score best.
* `Catalog.validate_cleared` : a verdict without its suggestions is that of a check which suggests
  nothing, whoever makes the suggestions.
* `Catalog.FailedLookup` : a check looks for a field among the members of a record, where it is not.
* `Closed.mem_mismatches_suggesting_iff` : suggestions are made at such look-ups and nowhere else.
* `Catalog.validate_suggesting` : both together, for names compared by any score.

Members are listed in lower case, and a text in lower case stays as it is. So what is listed is also
found, and the missing key, which is not found, is none of the names that may be suggested.
-/

set_option autoImplicit false

namespace Fieldwise

/-! ## The search for a name -/

section Closest

variable {α : Type} [LinearOrder α]

/-- A name together with its score. -/
def scored (score : String → α) (name : String) : String × α :=
  (name, score name)

/-- **The first of the names that score best is suggested**, and nothing if no name reaches the
threshold. -/
theorem closest_eq_argmax (score : String → String → α) (threshold : α) (key : String)
    (names : List String) :
    closest score threshold key names =
      (names.filter fun name => threshold ≤ score key name).argmax (score key) := by
  rw [closest, List.argmax, List.foldl_filter]
  -- the search carries the score of the best name along
  change (names.foldl _ (Option.map (scored (score key)) none)).map Prod.fst = _
  rw [List.foldl_hom (Option.map (scored (score key))), Option.map_map]
  · exact congrFun Option.map_id _
  intro best name
  by_cases hreach : threshold ≤ score key name
  · cases best with
    | none => simp [scored, hreach, List.argAux]
    | some other =>
      by_cases hbetter : score key other < score key name <;>
        simp [scored, hreach, hbetter, List.argAux]
  · simp [hreach]

end Closest

/-! ## Clearing -/

/-- The mismatch without its suggestion. -/
def Mismatch.cleared (m : Mismatch) : Mismatch :=
  { m with suggestion := none }

/-- The verdict without its suggestions. -/
def Verdict.cleared (v : Verdict) : Verdict :=
  ⟨v.mismatches.map Mismatch.cleared⟩

theorem Verdict.isValid_cleared (v : Verdict) : v.cleared.isValid = v.isValid :=
  List.isEmpty_map

namespace Catalog

variable {c : Catalog} {suggest : Suggester}

/-- **The walk reports the same but for suggestions.** -/
theorem mismatches_cleared (t : CallTree) : ∀ (path : List Step) (type : TypeExpr),
    (c.mismatches suggest path type t).map Mismatch.cleared =
      c.mismatches noSuggestion path type t := by
  induction t with
  | step t ihElement ihMembers =>
    intro path type
    have helement : ∀ e ∈ t.element.toList, ∀ path type,
        (c.mismatches suggest path type e).map Mismatch.cleared =
          c.mismatches noSuggestion path type e :=
      fun e he => ihElement e (Option.mem_toList.mp he)
    rw [mismatches_eq, mismatches_eq]
    cases c.settle type with
    | unknown name => rfl
    | scalar =>
      dsimp only
      split <;> rfl
    | slice inner =>
      dsimp only
      split
      · rw [List.map_flatMap]
        exact List.flatMap_congr fun e he => helement e he _ inner
      · rfl
    | map key value =>
      dsimp only
      split
      · rw [List.map_flatMap]
        refine List.flatMap_congr fun e he => ?_
        rw [List.map_append, helement e he _ key, helement e he _ value]
      · rfl
    | struct known =>
      dsimp only
      split
      · rfl
      · rw [List.map_flatMap]
        refine List.flatMap_congr fun entry hentry => ?_
        obtain ⟨key, child⟩ := entry
        rw [entryMismatches, entryMismatches]
        cases known.get? key with
        | none => rfl
        | some member => exact ihMembers _ hentry _ member

/-- **Suggestions change nothing else** in a verdict. -/
theorem validate_cleared (t : CallTree) (type : TypeExpr) :
    (c.validate suggest t type).cleared = c.validate noSuggestion t type := by
  rw [Verdict.cleared, validate_eq, validate_eq, mismatches_cleared]

/-! ## Look-ups that fail -/

/-- To check a tree against a type, a field is looked for at the end of a path, under `key` among
the members `known` of a record, and it is none of them. -/
inductive FailedLookup (c : Catalog) (known : FieldSet) (key : String) :
    List Step → CallTree → TypeExpr → Prop
  | here {t child : CallTree} {type : TypeExpr} (hshape : c.resolve type = some (.struct known))
    (he : t.element = none) (hentry : (key, child) ∈ t.members)
    (hmissing : known.get? key = none) : FailedLookup c known key [.field key] t type
  | pointer {path : List Step} {t : CallTree} {type target : TypeExpr}
    (hshape : c.resolve type = some (.pointer target))
    (h : FailedLookup c known key path t target) : FailedLookup c known key path t type
  | element {path : List Step} {t e : CallTree} {type inner : TypeExpr}
    (hshape : c.resolve type = some (.slice inner)) (hm : t.members = [])
    (he : t.element = some e) (h : FailedLookup c known key path e inner) :
    FailedLookup c known key (.element :: path) t type
  | mapKey {path : List Step} {t e : CallTree} {type keys values : TypeExpr}
    (hshape : c.resolve type = some (.map keys values)) (hm : t.members = [])
    (he : t.element = some e) (h : FailedLookup c known key path e keys) :
    FailedLookup c known key (.element :: path) t type
  | mapValue {path : List Step} {t e : CallTree} {type keys values : TypeExpr}
    (hshape : c.resolve type = some (.map keys values)) (hm : t.members = [])
    (he : t.element = some e) (h : FailedLookup c known key path e values) :
    FailedLookup c known key (.element :: path) t type
  | field {path : List Step} {t : CallTree} {entry : String × CallTree}
    {type member : TypeExpr} {fields : FieldSet}
    (hshape : c.resolve type = some (.struct fields)) (he : t.element = none)
    (hentry : entry ∈ t.members) (hmember : fields.get? entry.1 = some member)
    (h : FailedLookup c known key path entry.2 member) :
    FailedLookup c known key (.field entry.1 :: path) t type

/-- Where a look-up fails there is a record, and it has no member of that name. -/
theorem FailedLookup.exists_record {known : FieldSet} {key : String} {path : List Step}
    {t : CallTree} {type : TypeExpr} (h : c.FailedLookup known key path t type) :
    known.get? key = none ∧ ∃ reached, c.resolve reached = some (.struct known) := by
  induction h with
  | here hshape _ _ hmissing => exact ⟨hmissing, _, hshape⟩
  | pointer _ _ ih | element _ _ _ _ ih | mapKey _ _ _ _ ih | mapValue _ _ _ _ ih
  | field _ _ _ _ _ ih => exact ih

/-- The mismatch tells of a look-up that fails while `t` is checked against `type` behind the path
`above`, and bears what is suggested for it. -/
def TellsFailure (c : Catalog) (suggest : Suggester) (above : List Step) (m : Mismatch)
    (t : CallTree) (type : TypeExpr) : Prop :=
  ∃ path known key, c.FailedLookup known key path t type ∧
    m = missingField suggest known (above ++ path) key

section TellsFailure

variable {above : List Step} {m : Mismatch} {t : CallTree} {type : TypeExpr}

/-- A failure below a node is one in checking the node, if its look-up is. -/
theorem TellsFailure.below {step : Step} {t' : CallTree} {type' : TypeExpr}
    (h : c.TellsFailure suggest (above ++ [step]) m t' type')
    (hstep : ∀ {path known key}, c.FailedLookup known key path t' type' →
      c.FailedLookup known key (step :: path) t type) :
    c.TellsFailure suggest above m t type := by
  obtain ⟨path, known, key, hfailed, rfl⟩ := h
  exact ⟨step :: path, known, key, hstep hfailed, by rw [← List.append_cons]⟩

/-- **Every look-up that fails is reported**, with what is suggested for it. -/
theorem FailedLookup.mem_mismatches (hc : c.Closed) {known : FieldSet} {key : String}
    {path : List Step} (h : c.FailedLookup known key path t type) :
    ∀ above : List Step,
      missingField suggest known (above ++ path) key ∈ c.mismatches suggest above type t := by
  induction h with
  | here hshape he hentry hmissing =>
    intro above
    rw [hc.mismatches_turn, checkTurn, hshape]
    dsimp only
    rw [he]
    refine List.mem_flatMap.mpr ⟨_, hentry, ?_⟩
    simp [hmissing]
  | pointer hshape _ ih =>
    intro above
    rw [hc.mismatches_turn, checkTurn, hshape]
    exact ih above
  | element hshape hm he _ ih | mapKey hshape hm he _ ih | mapValue hshape hm he _ ih =>
    intro above
    have hbelow := ih (above ++ [.element])
    rw [← List.append_cons] at hbelow
    rw [hc.mismatches_turn, checkTurn, hshape]
    simp [hm, he, hbelow]
  | @field path t entry type member fields hshape he hentry hmember _ ih =>
    intro above
    have hbelow := ih (above ++ [.field entry.1])
    rw [← List.append_cons] at hbelow
    rw [hc.mismatches_turn, checkTurn, hshape]
    dsimp only
    rw [he]
    refine List.mem_flatMap.mpr ⟨entry, hentry, ?_⟩
    rwa [hmember]

namespace Closed

/-- Whatever bears a suggestion tells of a look-up that fails. -/
theorem tellsFailure (hc : c.Closed) (pair : CallTree × TypeExpr) :
    ∀ (above : List Step) (m : Mismatch), m ∈ c.mismatches suggest above pair.2 pair.1 →
      m.suggestion ≠ none → c.TellsFailure suggest above m pair.1 pair.2 := by
  -- along the calls, since a pointer is followed without a step down the tree
  induction pair using hc.wellFounded_calls.induction with
  | h pair ih =>
    obtain ⟨t, type⟩ := pair
    intro above m hm hsuggestion
    -- the other disagreements of a node bear no suggestion
    have hplain : ∀ d : Disagreement, m ∉ [d.at above] := by
      intro d hd
      rw [List.mem_singleton.mp hd] at hsuggestion
      exact hsuggestion rfl
    rw [hc.mismatches_turn, checkTurn] at hm
    cases hshape : c.resolve type with
    | none =>
      rw [hshape] at hm
      exact absurd hm (hplain _)
    | some shape =>
      rw [hshape] at hm
      cases shape with
      | scalar =>
        dsimp only at hm
        split at hm
        · cases hm
        · exact absurd hm (hplain _)
      | pointer target =>
        obtain ⟨path, known, key, hfailed, heq⟩ :=
          ih (t, target) (.pointer hshape) above m hm hsuggestion
        exact ⟨path, known, key, .pointer hshape hfailed, heq⟩
      | slice inner =>
        dsimp only at hm
        split at hm
        · next hempty =>
          have hmembers := List.isEmpty_iff.mp hempty
          obtain ⟨e, he, hm⟩ := List.mem_flatMap.mp hm
          rw [Option.mem_toList] at he
          exact (ih (e, inner) (.element hshape he) _ m hm hsuggestion).below
            (.element hshape hmembers he)
        · exact absurd hm (hplain _)
      | map keys values =>
        dsimp only at hm
        split at hm
        · next hempty =>
          have hmembers := List.isEmpty_iff.mp hempty
          obtain ⟨e, he, hm⟩ := List.mem_flatMap.mp hm
          rw [Option.mem_toList] at he
          rcases List.mem_append.mp hm with hm | hm
          · exact (ih (e, keys) (.key hshape he) _ m hm hsuggestion).below
              (.mapKey hshape hmembers he)
          · exact (ih (e, values) (.value hshape he) _ m hm hsuggestion).below
              (.mapValue hshape hmembers he)
        · exact absurd hm (hplain _)
      | struct fields =>
        dsimp only at hm
        split at hm
        · exact absurd hm (hplain _)
        · next hsome =>
          have helement : t.element = none := by simpa using hsome
          obtain ⟨⟨key, child⟩, hentry, hm⟩ := List.mem_flatMap.mp hm
          split at hm
          · next member hmember =>
            exact (ih (child, member) (.field hshape hentry hmember) _ m hm hsuggestion).below
              (.field hshape helement hentry hmember)
          · next hmissing =>
            exact ⟨[.field key], fields, key, .here hshape helement hentry hmissing,
              List.mem_singleton.mp hm⟩

/-- **Suggestions are made at failed look-ups**, at each that one is found for. -/
theorem mem_mismatches_suggesting_iff (hc : c.Closed) {name : String} :
    (m ∈ c.mismatches suggest above type t ∧ m.suggestion = some name) ↔
      c.TellsFailure suggest above m t type ∧ m.suggestion = some name := by
  refine and_congr_left fun hname => ⟨fun hm => ?_, ?_⟩
  · exact hc.tellsFailure (t, type) above m hm (by rw [hname]; exact Option.some_ne_none name)
  · rintro ⟨path, known, key, hfailed, rfl⟩
    exact hfailed.mem_mismatches hc above

end Closed

end TellsFailure

/-! ## Accepted catalogs -/

/-- The members of a record at which a look-up fails are found under the names that they are listed
by. -/
theorem FailedLookup.isSome_get? {file : CatalogFile} (w : file.WellFormed)
    (hnames : (file.types.map Prod.fst).Nodup) {known : FieldSet} {key name : String}
    {path : List Step} {t : CallTree} {type : TypeExpr}
    (h : (ofTypes file.types).FailedLookup known key path t type) (hname : name ∈ known.names) :
    (known.get? name).isSome = true := by
  obtain ⟨-, reached, hshape⟩ := h.exists_record
  have hsettle : (ofTypes file.types).settle reached = .struct known := by
    rw [(closed_ofTypes w hnames).settle_eq, hshape]
  obtain ⟨record, hentry⟩ := entry_of_settle hsettle
  rw [declared_of_struct hnames hentry] at hname ⊢
  rwa [FieldSet.isSome_get?_iff, FieldSet.lowercase_of_mem_ofStruct hname]

/-- **Suggestions are said beside a verdict and are no part of it.** However names are compared, a
check that suggests names gives the verdict of one that does not, once its suggestions are cleared.
They are made where a record lacks a field: the name is that of a member of this very record, never
the missing key, and is the first of those that score best among the names that reach the
threshold. The tree may have any keys, and the type names that are not known. -/
theorem validate_suggesting {file : CatalogFile} {c : Catalog}
    (hfile : Catalog.ofFile file = .ok c) (hnames : (file.types.map Prod.fst).Nodup)
    {α : Type} [LinearOrder α] (score : String → String → α) (threshold : α) (t : CallTree)
    (type : TypeExpr) :
    (c.validate (closest score threshold) t type).cleared = c.validate noSuggestion t type ∧
    (c.validate (closest score threshold) t type).isValid =
      (c.validate noSuggestion t type).isValid ∧
    ∀ m name, (m ∈ (c.validate (closest score threshold) t type).mismatches ∧
        m.suggestion = some name) ↔
      ∃ path known key, c.FailedLookup known key path t type ∧
        m = { (Disagreement.missingField key).at path with suggestion := some name } ∧
        name ∈ known.names ∧ (known.get? name).isSome = true ∧ name ≠ key ∧
        (known.names.filter fun n => threshold ≤ score key n).argmax (score key) = some name := by
  obtain ⟨w, rfl⟩ := of_ofFile hfile
  have hc := closed_ofTypes w hnames
  have hcleared : ((ofTypes file.types).validate (closest score threshold) t type).cleared =
      (ofTypes file.types).validate noSuggestion t type := validate_cleared t type
  refine ⟨hcleared, by rw [← hcleared, Verdict.isValid_cleared], fun m name => ?_⟩
  rw [mismatches_validate, hc.mem_mismatches_suggesting_iff]
  constructor
  · rintro ⟨⟨path, known, key, hfailed, rfl⟩, hname⟩
    have hfound : (known.names.filter fun n => threshold ≤ score key n).argmax (score key) =
        some name := by rw [← closest_eq_argmax]; exact hname
    have hmem : name ∈ known.names := (List.mem_filter.mp (List.argmax_mem hfound)).1
    have hget := hfailed.isSome_get? w hnames hmem
    refine ⟨path, known, key, hfailed, ?_, hmem, hget, ?_, hfound⟩
    · rw [← hname]
      rfl
    · rintro rfl
      rw [hfailed.exists_record.1] at hget
      cases hget
  · rintro ⟨path, known, key, hfailed, rfl, -, -, -, hfound⟩
    rw [← closest_eq_argmax] at hfound
    refine ⟨⟨path, known, key, hfailed, ?_⟩, rfl⟩
    rw [← hfound]
    rfl

/-- A page has the members of what it embeds, and items behind pointers and another name. Of the two
fields that an item lacks one is near to two of its members, equally near, and the first is
suggested. -/
theorem validate_suggesting_page :
    let file : CatalogFile :=
      ⟨[("Base", ⟨none, [⟨"Title", .named "string", false⟩], []⟩),
        ("Item", ⟨none, [⟨"Names", .named "string", false⟩, ⟨"Name", .named "string", false⟩], []⟩),
        ("Items", ⟨some (.slice (.pointer (.named "Item"))), [], []⟩),
        ("Page", ⟨none, [⟨"", .pointer (.named "Base"), true⟩, ⟨"Items", .named "Items", false⟩],
          []⟩)]⟩
    let score : String → String → Nat := fun key name => Text.commonLead key.toList name.toList
    let item : CallTree := .node none (some [("id", .empty), ("nam", .empty)])
    let t : CallTree := .node none (some [("items", .node (some item) none), ("titel", .empty)])
    let type : TypeExpr := .pointer (.named "Page")
    ∃ c, Catalog.ofFile file = .ok c ∧ (file.types.map Prod.fst).Nodup ∧
      (c.validate (closest score 3) t type).mismatches.map
          (fun m => (m.breadcrumb, m.suggestion)) =
        [(".items[].id", none), (".items[].nam", some "name"), (".titel", some "title")] ∧
      (c.validate (closest score 3) t type).cleared = c.validate noSuggestion t type ∧
      (c.validate (closest score 3) t type).isValid = (c.validate noSuggestion t type).isValid ∧
      ∀ m name, (m ∈ (c.validate (closest score 3) t type).mismatches ∧
          m.suggestion = some name) ↔
        ∃ path known key, c.FailedLookup known key path t type ∧
          m = { (Disagreement.missingField key).at path with suggestion := some name } ∧
          name ∈ known.names ∧ (known.get? name).isSome = true ∧ name ≠ key ∧
          (known.names.filter fun n => 3 ≤ score key n).argmax (score key) = some name := by
  intro file score item t type
  have hfile : Catalog.ofFile file = .ok (ofTypes file.types) :=
    ofFile_of_isOk (by decide +kernel)
  have hnames : (file.types.map Prod.fst).Nodup := by decide
  obtain ⟨hcleared, hvalid, hsuggested⟩ :=
    validate_suggesting hfile hnames score 3 t type
  exact ⟨_, hfile, hnames, by decide +kernel, hcleared, hvalid, hsuggested⟩

end Catalog

end Fieldwise
