import Fieldwise.Proofs.TypeExpr.Parser

/-!
# Writing a type and reading it again

* `Spellable` : every name in the type is a name of the grammar, and every length is one.
* `isBareType_render` : the written form of such a type spells it, and `IsType.spellable` : no other
  type is spelled at all.
* `parse_render_canonical` : so exactly these types are read back from their written form, whatever
  is read is one of them, and two texts spell one type exactly when both can be read and the
  written forms agree.
-/

set_option autoImplicit false

namespace Fieldwise.TypeExpr

/-- The lengths of all arrays in the expression, from left to right. -/
def lengths : TypeExpr → List Nat
  | named _ => []
  | pointer target => target.lengths
  | slice element => element.lengths
  | array length element => length :: element.lengths
  | map key value => key.lengths ++ value.lengths

/-- Every name is one of the grammar and every length is below its bound. -/
structure Spellable (e : TypeExpr) : Prop where
  isTypeName : ∀ name ∈ e.names, isTypeName name.toList = true
  lt_bound : ∀ n ∈ e.lengths, n < lengthBound

instance (e : TypeExpr) : Decidable e.Spellable :=
  decidable_of_iff ((∀ name ∈ e.names, TypeExpr.isTypeName name.toList = true) ∧
      ∀ n ∈ e.lengths, n < lengthBound)
    ⟨fun h => ⟨h.1, h.2⟩, fun h => ⟨h.1, h.2⟩⟩

variable {e key value target element : TypeExpr} {name : String} {length : Nat}

theorem spellable_named : (named name).Spellable ↔ isTypeName name.toList = true :=
  ⟨fun h => h.isTypeName name (by simp [names]),
    fun h => ⟨by simpa [names] using h, by simp [lengths]⟩⟩

theorem spellable_pointer : (pointer target).Spellable ↔ target.Spellable :=
  ⟨fun h => ⟨h.isTypeName, h.lt_bound⟩, fun h => ⟨h.isTypeName, h.lt_bound⟩⟩

theorem spellable_slice : (slice element).Spellable ↔ element.Spellable :=
  ⟨fun h => ⟨h.isTypeName, h.lt_bound⟩, fun h => ⟨h.isTypeName, h.lt_bound⟩⟩

theorem spellable_array :
    (array length element).Spellable ↔ length < lengthBound ∧ element.Spellable := by
  constructor
  · rintro ⟨hnames, hlengths⟩
    obtain ⟨hlength, hlengths⟩ := List.forall_mem_cons.mp hlengths
    exact ⟨hlength, hnames, hlengths⟩
  · rintro ⟨hlength, hnames, hlengths⟩
    exact ⟨hnames, List.forall_mem_cons.mpr ⟨hlength, hlengths⟩⟩

theorem spellable_map : (map key value).Spellable ↔ key.Spellable ∧ value.Spellable := by
  constructor
  · rintro ⟨hnames, hlengths⟩
    obtain ⟨hkeyNames, hvalueNames⟩ := List.forall_mem_append.mp hnames
    obtain ⟨hkeyLengths, hvalueLengths⟩ := List.forall_mem_append.mp hlengths
    exact ⟨⟨hkeyNames, hkeyLengths⟩, ⟨hvalueNames, hvalueLengths⟩⟩
  · rintro ⟨⟨hkeyNames, hkeyLengths⟩, ⟨hvalueNames, hvalueLengths⟩⟩
    exact ⟨List.forall_mem_append.mpr ⟨hkeyNames, hvalueNames⟩,
      List.forall_mem_append.mpr ⟨hkeyLengths, hvalueLengths⟩⟩

/-! ## What is written spells the type -/

/-- The digits that a number is written with are a numeral of it. -/
theorem isDigits_toDigits (n : Nat) : IsDigits (Nat.toDigits 10 n) n := by
  have hvalue : ∀ cs, Decimal.digitsValue cs = Nat.ofDigitChars 10 cs 0 := fun cs => by
    simp [Decimal.digitsValue, Nat.ofDigitChars_eq_foldl, Nat.mul_comm]
  refine isDigits_iff.mpr ⟨Nat.toDigits_ne_nil, fun c hc => ?_, ?_⟩
  · exact Nat.isDigit_of_mem_toDigits (by decide) (by decide) hc
  · rw [hvalue, Nat.ofDigitChars_toDigits (by decide) (by decide)]

theorem IsBareType.isType {cs : List Char} (h : IsBareType cs e) : IsType cs e := by
  simpa using IsType.spaced Text.isSpace_nil h Text.isSpace_nil

/-- **The written form of a type spells it.** -/
theorem isBareType_render (h : e.Spellable) : IsBareType e.render.toList e := by
  induction e with
  | named name =>
    have hname : IsTypeName name.toList := (isTypeName_iff _).mp (spellable_named.mp h)
    simpa [render] using IsBareType.named hname
  | pointer target ih =>
    simpa [render] using IsBareType.pointer (ih (spellable_pointer.mp h)).isType
  | slice element ih =>
    simpa [render] using IsBareType.slice (ih (spellable_slice.mp h)).isType
  | array length element ih =>
    obtain ⟨hlength, helement⟩ := spellable_array.mp h
    have hdigits : IsLength (Nat.toDigits 10 length) length :=
      .plain (isDigits_toDigits length) hlength
    simpa [render] using
      IsBareType.array Text.isSpace_nil hdigits Text.isSpace_nil (ih helement).isType
  | map key value ihKey ihValue =>
    obtain ⟨hkey, hvalue⟩ := spellable_map.mp h
    simpa [render] using IsBareType.map (ihKey hkey).isType (ihValue hvalue).isType

theorem parse_render (h : e.Spellable) : parse e.render = .ok e :=
  parse_eq_ok_iff.mpr (isBareType_render h).isType

/-! ## Nothing else is spelled -/

theorem IsLength.lt_bound {cs : List Char} {n : Nat} (h : IsLength cs n) : n < lengthBound := by
  rcases h with ⟨-, hn⟩ | ⟨-, hn⟩ <;> exact hn

mutual

/-- **A type that some text spells can be written.** -/
theorem IsType.spellable {cs : List Char} {e : TypeExpr} : IsType cs e → e.Spellable
  | .spaced _ h _ => h.spellable

/-- White space around the text does not matter to the type. -/
theorem IsBareType.spellable {cs : List Char} {e : TypeExpr} : IsBareType cs e → e.Spellable
  | .pointer h => spellable_pointer.mpr h.spellable
  | .slice h => spellable_slice.mpr h.spellable
  | .map hk hv => spellable_map.mpr ⟨hk.spellable, hv.spellable⟩
  | .array _ hn _ h => spellable_array.mpr ⟨hn.lt_bound, h.spellable⟩
  | .named h => spellable_named.mpr (by simpa using (isTypeName_iff _).mpr h)

end

theorem spellable_of_parse {s : String} (h : parse s = .ok e) : e.Spellable :=
  (parse_eq_ok_iff.mp h).spellable

/-- Exactly the types with proper names and lengths are read back from their written form, and
whatever is read is such a type. The written form is canonical: two texts spell one type exactly
when both can be read and what is read from them is written alike. -/
theorem parse_render_canonical :
    (∀ e, parse e.render = .ok e ↔ e.Spellable) ∧
      (∀ s e, parse s = .ok e → e.Spellable ∧ parse e.render = .ok e) ∧
        ∀ s t, (∃ e, parse s = .ok e ∧ parse t = .ok e) ↔
          ∃ d e, parse s = .ok d ∧ parse t = .ok e ∧ d.render = e.render := by
  refine ⟨fun e => ⟨spellable_of_parse, parse_render⟩, fun s e h => ?_, fun s t => ?_⟩
  · exact ⟨spellable_of_parse h, parse_render (spellable_of_parse h)⟩
  · constructor
    · rintro ⟨e, hs, ht⟩
      exact ⟨e, e, hs, ht, rfl⟩
    · rintro ⟨d, e, hs, ht, hrender⟩
      -- what both are written as is read as each of them
      have hd := parse_render (spellable_of_parse hs)
      rw [hrender, parse_render (spellable_of_parse ht)] at hd
      obtain rfl : e = d := Except.ok.inj hd
      exact ⟨e, hs, ht⟩

/-- Two texts of one type; and a type that no text spells, as its name ends in a dot. -/
theorem parse_render_canonical_spaced :
    (∃ e, parse " map[ [ +3 ]a.B ]* c " = .ok e ∧ parse "map[[003]a.B]*c" = .ok e) ∧
      parse (slice (named "a.")).render ≠ .ok (slice (named "a.")) := by
  have hread : ∀ s ∈ [" map[ [ +3 ]a.B ]* c ", "map[[003]a.B]*c"],
      parse s = .ok (map (array 3 (named "a.B")) (pointer (named "c"))) := by
    decide +kernel
  exact ⟨(parse_render_canonical.2.2 _ _).mpr
      ⟨_, _, hread _ (by simp), hread _ (by simp), rfl⟩,
    mt (parse_render_canonical.1 _).mp (by decide)⟩

end Fieldwise.TypeExpr
