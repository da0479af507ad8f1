import Fieldwise.Catalog.Load
import Fieldwise.Proofs.Outcome
import Fieldwise.Proofs.TypeExpr.Grammar

/-!
# Reading type expressions follows the grammar

* `isType_of_parseChars` : what is read is derived by the grammar.
* `IsType.parseChars_eq` : what the grammar derives is read, whatever white space stands around it.
* `ofText_exact` : so a text is read as a type exactly when it spells it, it spells one type at
  most, and otherwise the error names the whole text.
-/

set_option autoImplicit false

namespace Fieldwise.TypeExpr

variable {cs rest : List Char} {e : TypeExpr}

/-! ## What is read is derived -/

/-- White space around a text that spells a type changes nothing. -/
theorem IsType.of_trim (h : IsBareType (Text.trim cs) e) : IsType cs e := by
  obtain ⟨v, w, hv, hw, hcs⟩ := Text.exists_space_trim cs
  rw [hcs]
  exact .spaced hv h hw

/-- **What is read is derived by the grammar.** -/
theorem isType_of_parseChars (h : parseChars cs = .ok e) : IsType cs e := by
  refine .of_trim ?_
  fun_induction parseChars cs generalizing e with
  | case1 => cases h
  | case2 cs rest htrim _ ih =>
    obtain ⟨target, htarget, rfl⟩ := map_eq_ok_iff.mp h
    rw [htrim]
    exact .pointer (.of_trim (ih htarget))
  | case3 cs rest htrim _ ih =>
    obtain ⟨element, helement, rfl⟩ := map_eq_ok_iff.mp h
    rw [htrim]
    exact .slice (.of_trim (ih helement))
  | case4 => cases h
  | case5 => cases h
  | case6 cs rest htrim ks vs hsplit _ _ key hkey ihKey ihValue =>
    obtain ⟨value, hvalue, rfl⟩ := map_eq_ok_iff.mp h
    rw [htrim, eq_append_of_splitBracket hsplit]
    exact .map (.of_trim (ihKey hkey)) (.of_trim (ihValue hvalue))
  | case7 => cases h
  | case8 => cases h
  | case9 cs rest _ htrim ls es hsplit _ length hlength ih =>
    obtain ⟨element, helement, rfl⟩ := map_eq_ok_iff.mp h
    obtain ⟨v, w, hv, hw, hls⟩ := Text.exists_space_trim ls
    rw [htrim, eq_append_of_splitLength hsplit, hls]
    exact .array hv (parseLength_eq_some_iff.mp hlength) hw (.of_trim (ih helement))
  | case10 cs _ _ _ _ _ hname =>
    obtain rfl := Except.ok.inj h
    exact .named ((isTypeName_iff _).mp hname)
  | case11 => cases h

/-! ## What is derived is read

Each equation below is one branch of the reader, chosen by what is left when white space is taken
off. -/

theorem parseChars_pointer (h : Text.trim cs = '*' :: rest) :
    parseChars cs = (parseChars rest).map pointer := by
  rw [parseChars]
  split <;> simp_all

theorem parseChars_slice (h : Text.trim cs = '[' :: ']' :: rest) :
    parseChars cs = (parseChars rest).map slice := by
  rw [parseChars]
  split <;> simp_all

theorem parseChars_map {ks vs : List Char} {key : TypeExpr}
    (h : Text.trim cs = 'm' :: 'a' :: 'p' :: '[' :: rest)
    (hsplit : splitBracket 0 rest = some (ks, vs)) (hkey : parseChars ks = .ok key) :
    parseChars cs = (parseChars vs).map (map key) := by
  rw [parseChars]
  split <;> simp_all
  split <;> simp_all

theorem parseChars_array {ls es : List Char} {length : Nat} (h : Text.trim cs = '[' :: rest)
    (hsplit : splitLength rest = some (ls, es))
    (hlength : parseLength (Text.trim ls) = some length) :
    parseChars cs = (parseChars es).map (array length) := by
  -- a length is not empty, so this is not the mark of a slice
  have hslice : ∀ tail, rest ≠ ']' :: tail := by
    rintro tail rfl
    cases hsplit
    cases hlength
  rw [parseChars]
  split
  case h_3 tail htrim =>
    rw [h] at htrim
    exact absurd (List.cons.inj htrim).2 (hslice tail)
  all_goals simp_all
  split <;> simp_all

theorem parseChars_named (h : IsTypeName (Text.trim cs)) :
    parseChars cs = .ok (named (String.ofList (Text.trim cs))) := by
  have hname : isTypeName (Text.trim cs) = true := (isTypeName_iff _).mpr h
  have hnone : ∀ c ∈ Text.trim cs, c ≠ '[' ∧ c ≠ ']' ∧ c ≠ '*' := fun c hc =>
    (h.forall_isNameChar c hc).ne_bracket
  rw [parseChars]
  split <;> simp_all [isTypeName]

/-- What trimming leaves of a text with a mark first and a closing bracket further on: white space
is dropped behind the bracket only. -/
theorem trim_mark_append {c : Char} (hc : Text.isWhiteSpace c = false) (front rest : List Char) :
    Text.trim (c :: (front ++ ']' :: rest)) =
      c :: (front ++ ']' :: Text.dropWhileEnd Text.isWhiteSpace rest) := by
  rw [← List.nil_append (c :: _), Text.trim_append_cons Text.isSpace_nil hc,
    Text.dropWhileEnd_append_cons (by decide)]

mutual

/-- **What the grammar derives is read**, whatever white space stands around it. -/
theorem IsType.parseChars_eq {cs text : List Char} {e : TypeExpr} :
    IsType cs e → Text.trim text = Text.trim cs → parseChars text = .ok e
  | .spaced hv h hw, htext =>
    h.parseChars_eq (by rw [htext, Text.trim_append hv, Text.trim_append_right _ hw])

/-- Each kind of type is known by the first characters that are no white space. -/
theorem IsBareType.parseChars_eq {cs text : List Char} {e : TypeExpr} :
    IsBareType cs e → Text.trim text = Text.trim cs → parseChars text = .ok e
  | @IsBareType.pointer cs target h, htext => by
    have htrim := htext.trans (Text.trim_append_cons Text.isSpace_nil (by decide) cs)
    rw [parseChars_pointer htrim, h.parseChars_eq (Text.trim_dropWhileEnd cs)]
    rfl
  | @IsBareType.slice cs element h, htext => by
    have htrim := htext.trans (trim_mark_append (by decide) [] cs)
    rw [parseChars_slice htrim, h.parseChars_eq (Text.trim_dropWhileEnd cs)]
    rfl
  | @IsBareType.map ks vs key value hk hv, htext => by
    have htrim := htext.trans (trim_mark_append (by decide) ('a' :: 'p' :: '[' :: ks) vs)
    rw [parseChars_map htrim (splitBracket_append hk.balanced _) (hk.parseChars_eq rfl),
      hv.parseChars_eq (Text.trim_dropWhileEnd vs)]
    rfl
  | @IsBareType.array v n w cs length element hv hn hw h, htext => by
    have htrim := htext.trans (trim_mark_append (by decide) (v ++ (n ++ w)) cs)
    have hlength : parseLength (Text.trim (v ++ (n ++ w))) = some length := by
      rw [Text.trim_append hv, Text.trim_append_right _ hw, hn.trim_eq]
      exact parseLength_eq_some_iff.mpr hn
    have hclose : ∀ c ∈ v ++ (n ++ w), c ≠ ']' := fun c hc => (hn.ne_bracket hv hw c hc).2
    rw [parseChars_array htrim (splitLength_append hclose _) hlength,
      h.parseChars_eq (Text.trim_dropWhileEnd cs)]
    rfl
  | @IsBareType.named name h, htext => by
    have hname : Text.trim name = name :=
      Text.trim_eq_self fun c hc => (h.forall_isNameChar c hc).not_whiteSpace
    rw [hname] at htext
    subst htext
    exact parseChars_named h

end

/-- **Reading type expressions follows the grammar exactly.** -/
theorem parse_eq_ok_iff {s : String} : parse s = .ok e ↔ IsType s.toList e :=
  ⟨isType_of_parseChars, fun h => h.parseChars_eq rfl⟩

/-- A text is read as a type exactly when the grammar derives it from the text. All derivations
of a text denote the same type, and a text without one is refused with an error that names it as a
whole. -/
theorem ofText_exact (s : String) :
    (∀ e, ofText s = .ok e ↔ IsType s.toList e) ∧
      (∀ d e, IsType s.toList d → IsType s.toList e → d = e) ∧
        ((∀ e, ¬ IsType s.toList e) ↔ ∃ fault, ofText s = .error (.typeExpr s fault)) := by
  have hiff : ∀ e, ofText s = .ok e ↔ IsType s.toList e := fun e =>
    mapError_eq_ok_iff.trans parse_eq_ok_iff
  refine ⟨hiff, fun d e hd he => ?_, ?_⟩
  · have hd := (hiff d).mpr hd
    rw [(hiff e).mpr he] at hd
    exact (Except.ok.inj hd).symm
  · constructor
    · intro hnone
      cases hparse : parse s with
      | ok e => exact absurd (parse_eq_ok_iff.mp hparse) (hnone e)
      | error fault => exact ⟨fault, by rw [ofText, hparse]; rfl⟩
    · rintro ⟨fault, hfault⟩ e he
      rw [(hiff e).mpr he] at hfault
      cases hfault

/-- White space may stand around every part, but not within the mark of a slice. -/
theorem ofText_exact_spaced :
    IsType " map[ [ +3 ]a.B ]* c ".toList (map (array 3 (named "a.B")) (pointer (named "c"))) ∧
      ∀ e, ¬ IsType "map[[ ]a.B]*c".toList e :=
  ⟨((ofText_exact _).1 _).mp (by decide +kernel),
    (ofText_exact _).2.2.mpr ⟨.badLength, by decide +kernel⟩⟩

end Fieldwise.TypeExpr
