import Fieldwise.CallTree.Build
import Fieldwise.Proofs.CallTree.Union
import Fieldwise.Proofs.Template.Segments

/-!
# An action that shows a field

* `IsFieldName` : the names that can stand behind a dot.
* `Lexeme.scan_field`, `Scan.readAction_field` : a dot and such a name are read as one token,
  whatever follows, as long as it does not go on with the name.
* `Scan.ofSource_field`, `CallTree.ofSource_field` : a template that shows a field, its tokens and
  its call tree.
-/

set_option autoImplicit false

namespace Fieldwise

/-- A name that can stand behind a dot: not empty, letters, digits and underscores, and not one of
the digits of numbers first. -/
structure IsFieldName (name : String) : Prop where
  isWordChar : ∀ c ∈ name.toList, isWordChar c = true
  start : name.toList.head?.any (fun c => !c.isDigit) = true

instance (name : String) : Decidable (IsFieldName name) :=
  decidable_of_iff (name.toList.all Fieldwise.isWordChar = true ∧
      name.toList.head?.any (fun c => !c.isDigit) = true)
    ⟨fun h => ⟨List.all_eq_true.mp h.1, h.2⟩, fun h => ⟨List.all_eq_true.mpr h.1, h.2⟩⟩

/-- The template that shows a field. -/
def showField (name : String) : String :=
  "\x7b\x7b." ++ name ++ "\x7d\x7d"

variable {name : String} {rest : List Char}

namespace Lexeme

/-- **A dot and a name are one lexeme**, up to the first character that does not belong to a
name. -/
theorem scan_field (h : IsFieldName name) (hrest : rest.head?.any isWordChar = false) :
    scan '.' (name.toList ++ rest) =
      .ok ⟨.field name, '.' :: name.toList, rest⟩ := by
  obtain ⟨c, cs, hname⟩ : ∃ c cs, name.toList = c :: cs := by
    cases hname : name.toList with
    | nil =>
      have hstart := h.start
      rw [hname] at hstart
      cases hstart
    | cons c cs => exact ⟨c, cs, rfl⟩
  have hdigit : c.isDigit = false := by
    simpa [hname] using h.start
  have hword : isWordChar c = true := h.isWordChar c (by rw [hname]; exact List.mem_cons_self)
  have hstop : rest.takeWhile isWordChar = [] ∧ rest.dropWhile isWordChar = rest := by
    cases rest with
    | nil => exact ⟨rfl, rfl⟩
    | cons d ds =>
      have hd : isWordChar d = false := hrest
      simp [hd]
  have htake : (name.toList ++ rest).takeWhile isWordChar = name.toList := by
    rw [List.takeWhile_append_of_pos h.isWordChar, hstop.1, List.append_nil]
  have hdrop : (name.toList ++ rest).dropWhile isWordChar = rest := by
    rw [List.dropWhile_append_of_pos h.isWordChar, hstop.2]
  have hhead : (name.toList ++ rest).head? = some c := by
    rw [hname]
    rfl
  have hdot : scan '.' (name.toList ++ rest) = scanDot '.' (name.toList ++ rest) := rfl
  rw [hdot, scanDot, hhead, htake, hdrop, String.ofList_toList]
  simp [hdigit, hword]

end Lexeme

namespace Scan

/-- Inside an action a dot and a name are read as the token of a field. -/
theorem readAction_field (h : IsFieldName name) (hrest : rest.head?.any isWordChar = false)
    (opened pos : Pos) (space : Bool) :
    readAction opened pos space ('.' :: (name.toList ++ rest)) =
      match readAction opened (pos.afterAll ('.' :: name.toList)) false rest with
      | .error e => .error e
      | .ok body => .ok { body with tokens := ⟨.field name, pos, space⟩ :: body.tokens } := by
  have hspace : isSpace '.' = false := by decide
  have htrims : closesTrimming ('.' :: (name.toList ++ rest)) = false := rfl
  have hcloses : closes ('.' :: (name.toList ++ rest)) = false := rfl
  rw [readAction_cons, hspace, htrims, hcloses, Bool.and_false, Lexeme.scan_field h hrest]
  rfl

/-- **A template that shows a field holds one action**, whose only token is that field. -/
theorem ofSource_field (h : IsFieldName name) :
    ∃ close finish, close.kind = .rightDelim ∧
      ofSource (showField name) =
        .ok ⟨[.action ⟨.start, [⟨.field name, ⟨1, 3⟩, false⟩], close⟩], finish⟩ := by
  have hsource : (showField name).toList =
      '\x7b' :: '\x7b' :: '.' :: (name.toList ++ ['\x7d', '\x7d']) := by
    simp [showField]
  have hsplit : splitText (showField name).toList = ([], (showField name).toList) := by
    rw [hsource]
    rfl
  have hne : (splitText (showField name).toList).2 ≠ [] := by
    rw [hsplit, hsource]
    exact List.cons_ne_nil _ _
  have htrims : opensTrimming (showField name).toList = false := by
    rw [hsource]
    rfl
  have hend : (['\x7d', '\x7d'] : List Char).head?.any isWordChar = false := by decide
  have hbraces : readBraces .start (showField name).toList =
      match readAction .start ⟨1, 3⟩ false ('.' :: (name.toList ++ ['\x7d', '\x7d'])) with
      | .error e => .error e
      | .ok body => .ok (some ⟨.start, body.tokens, body.close⟩, body.closing) := by
    rw [hsource]
    rfl
  have hclosed (pos : Pos) : readAction .start pos false ['\x7d', '\x7d'] =
      .ok ⟨[], ⟨.rightDelim, pos, false⟩, ⟨false, pos.afterAll ['\x7d', '\x7d'], []⟩⟩ := by
    rw [readAction_cons]
    rfl
  have hnil (pos : Pos) : readSegments pos false [] = .ok ⟨[], pos⟩ := readSegments_of_nil rfl
  rw [readAction_field h hend, hclosed] at hbraces
  rw [ofSource, readSegments_of_ne_nil hne, hsplit, Pos.afterAll_nil, hbraces]
  dsimp only
  rw [hnil, htrims]
  exact ⟨_, _, rfl, rfl⟩

end Scan

/-- **The call tree of a template that shows a field** is the path to that field. -/
theorem CallTree.ofSource_field (h : IsFieldName name) :
    ofSource (showField name) = .ok (.ofPath [.named name]) := by
  obtain ⟨⟨kind, pos, space⟩, finish, rfl, hscan⟩ := Scan.ofSource_field h
  rw [ofSource, Template.ofSource, hscan]
  rfl

end Fieldwise
