import Fieldwise.Template.Lexeme

/-!
# Lexemes followed by more text

A lexeme ends where it does because of the characters up to the one behind it. As long as
something is left behind a lexeme, the source can be continued at its end without a change to the
lexeme.

* `Lexeme.Settled` : a splitter that keeps all characters and, unless it takes all of them, pays no
  heed to how they go on.
* `Lexeme.settled_takeNumber` : numbers are split off so.
* `Lexeme.scan_followed` : a lexeme with something behind it stays the same when more text follows.
-/

set_option autoImplicit false

namespace Fieldwise

namespace Lexeme

/-! ## Runs of characters -/

theorem takeWhile_followed {α : Type} {p : α → Bool} {cs : List α} (h : cs.dropWhile p ≠ [])
    (ds : List α) : (cs ++ ds).takeWhile p = cs.takeWhile p := by
  rw [List.takeWhile_append, if_neg]
  intro hlen
  have hsplit := congrArg List.length (List.takeWhile_append_dropWhile (p := p) (l := cs))
  rw [List.length_append, hlen] at hsplit
  exact h (List.length_eq_zero_iff.mp (by omega))

theorem dropWhile_followed {α : Type} {p : α → Bool} {cs : List α} (h : cs.dropWhile p ≠ [])
    (ds : List α) : (cs ++ ds).dropWhile p = cs.dropWhile p ++ ds := by
  rw [List.dropWhile_append, if_neg]
  simpa using h

theorem head?_followed {α : Type} {cs : List α} (h : cs ≠ []) (ds : List α) :
    (cs ++ ds).head? = cs.head? := by
  cases cs with
  | nil => exact absurd rfl h
  | cons => rfl

/-! ## Quoted strings -/

variable {cs rest : List Char}

theorem takeHex_followed {count high value : Nat} {used : List Char}
    (h : takeHex count high cs = some (value, used, rest)) (ds : List Char) :
    takeHex count high (cs ++ ds) = some (value, used, rest ++ ds) := by
  fun_induction takeHex count high cs generalizing value used rest with
  | case1 => cases h; simp [takeHex]
  | case2 => cases h
  | case3 => cases h
  | case4 => cases h
  | case5 _ _ _ _ _ hdigit _ _ _ hrest ih =>
    cases h
    simp [takeHex, hdigit, ih hrest]

theorem scanEscape_followed {c : Char} {used : List Char}
    (h : scanEscape cs = .ok (c, used, rest)) (ds : List Char) :
    scanEscape (cs ++ ds) = .ok (c, used, rest ++ ds) := by
  unfold scanEscape at h
  split at h
  · cases h
  · next first tail =>
    split at h
    · next hsimple =>
      cases h
      simp [scanEscape, hsimple]
    · next hsimple =>
      split at h
      · cases h
      · next hdigits =>
        split at h
        · cases h
        · next hhex =>
          split at h
          · next hvalid =>
            cases h
            simp [scanEscape, hsimple, hdigits, takeHex_followed hhex ds, hvalid]
          · cases h

theorem scanString_followed {values chars : List Char}
    (h : scanString cs = .ok (values, chars, rest)) (ds : List Char) :
    scanString (cs ++ ds) = .ok (values, chars, rest ++ ds) := by
  fun_induction scanString cs generalizing values chars rest with
  | case1 => cases h
  | case2 => cases h
  | case3 =>
    cases h
    simp [scanString]
  | case4 => cases h
  | case5 => cases h
  | case6 _ value used middle hescape _ _ _ _ hrest _ _ ih =>
    cases h
    rw [List.cons_append, scanString, if_neg (by decide), if_neg (by decide), if_pos rfl]
    split
    · next he => cases he.symm.trans (scanEscape_followed hescape ds)
    · next he =>
      cases he.symm.trans (scanEscape_followed hescape ds)
      simp [ih hrest]
  | case7 => cases h
  | case8 _ _ hline hquote hescape _ _ _ hrest ih =>
    cases h
    rw [List.cons_append, scanString, if_neg hline, if_neg hquote, if_neg hescape, ih hrest]

theorem scanRaw_followed {value : List Char} (h : scanRaw cs = .ok (value, rest))
    (ds : List Char) : scanRaw (cs ++ ds) = .ok (value, rest ++ ds) := by
  fun_induction scanRaw cs generalizing value rest with
  | case1 => cases h
  | case2 =>
    cases h
    simp [scanRaw]
  | case3 => cases h
  | case4 _ _ hquote _ _ hrest ih =>
    cases h
    simp [scanRaw, hquote, ih hrest]

theorem scanCharacter_followed {chars : List Char} (h : scanCharacter cs = .ok (chars, rest))
    (ds : List Char) : scanCharacter (cs ++ ds) = .ok (chars, rest ++ ds) := by
  fun_induction scanCharacter cs generalizing chars rest with
  | case1 => cases h
  | case2 => cases h
  | case3 _ _ _ _ hrest ih =>
    cases h
    simp [scanCharacter, ih hrest]
  | case4 => cases h
  | case5 =>
    cases h
    simp [scanCharacter]
  | case6 => cases h
  | case7 c tail hescape hline hquote _ _ hrest ih =>
    cases h
    -- a lone backslash hides nothing, but then the constant does not end either
    have hnil : tail ≠ [] := by
      rintro rfl
      cases hrest
    obtain ⟨c', tail, rfl⟩ := List.exists_cons_of_ne_nil hnil
    rw [List.cons_append, scanCharacter, if_neg hline, if_neg hquote, ih hrest]
    rintro c'' cs'' rfl heq
    cases heq
    exact hescape _ _ rfl rfl

/-! ## Numbers -/

/-- The splitter keeps all characters, and unless it takes all of them it pays no heed to how they
go on. -/
structure Settled (f : List Char → List Char × List Char) : Prop where
  append : ∀ cs, (f cs).1 ++ (f cs).2 = cs
  followed : ∀ cs ds, (f cs).2 ≠ [] → f (cs ++ ds) = ((f cs).1, (f cs).2 ++ ds)

variable {f g : List Char → List Char × List Char} {p : Char → Bool}

theorem Settled.ne_nil (h : Settled f) {cs : List Char} (hne : (f cs).2 ≠ []) : cs ≠ [] := by
  rintro rfl
  exact hne (List.append_eq_nil_iff.mp (h.append [])).2

theorem settled_takeOne (p : Char → Bool) : Settled (takeOne p) where
  append := takeOne_append p
  followed cs ds h := by
    cases cs with
    | nil => exact absurd rfl h
    | cons c cs =>
      simp only [takeOne, List.cons_append]
      split <;> rfl

theorem settled_takeMany (p : Char → Bool) : Settled (takeMany p) where
  append := takeMany_append p
  followed cs ds h := by
    rw [takeMany, takeMany, takeWhile_followed h, dropWhile_followed h]

theorem Settled.both (hf : Settled f) (hg : Settled g) : Settled (takeBoth f g) where
  append := takeBoth_append hf.append hg.append
  followed cs ds h := by
    simp only [takeBoth] at h ⊢
    rw [hf.followed cs ds (hg.ne_nil h), hg.followed _ ds h]

theorem Settled.ifAny (hf : Settled f) (hg : Settled g) : Settled (takeIfAny f g) where
  append := takeIfAny_append hf.append hg.append
  followed cs ds h := by
    unfold takeIfAny at h ⊢
    split at h
    · next rest heq =>
      have hfollowed := hf.followed cs ds (by rw [heq]; exact h)
      rw [heq] at hfollowed
      rw [hfollowed]
    · next a rest hne heq =>
      have hfollowed := hf.followed cs ds (by rw [heq]; exact hg.ne_nil h)
      rw [heq] at hfollowed
      rw [hfollowed]
      cases a with
      | nil => exact absurd rfl (hne ·)
      | cons c a => simp only [hg.followed rest ds h]

theorem settled_takeDecimal : Settled takeDecimal :=
  (settled_takeMany _).both <|
    ((settled_takeOne _).ifAny (settled_takeMany _)).both <|
      (settled_takeOne _).ifAny ((settled_takeOne _).both (settled_takeMany _))

theorem settled_takeMagnitude : Settled takeMagnitude where
  append := takeMagnitude_append
  followed cs ds h := by
    unfold takeMagnitude at h
    split at h
    · next mark tail =>
      simp only [takeMagnitude, List.cons_append]
      split at h
      · next hmark =>
        rw [if_pos hmark, if_pos hmark, (settled_takeMany _).followed tail ds h]
      · next hmark =>
        rw [if_neg hmark, if_neg hmark]
        exact settled_takeDecimal.followed _ ds h
    · next hzero =>
      -- a zero at the very end is taken whole, so that nothing is left
      have hshort : cs ≠ ['0'] := by
        rintro rfl
        exact h rfl
      have hne := settled_takeDecimal.ne_nil h
      have hmagnitude : ∀ es, takeMagnitude (cs ++ es) = takeDecimal (cs ++ es) := by
        intro es
        unfold takeMagnitude
        split
        · next mark tail heq =>
          obtain ⟨c, cs, rfl⟩ := List.exists_cons_of_ne_nil hne
          obtain ⟨rfl, heq⟩ := List.cons.inj heq
          cases cs with
          | nil => exact absurd rfl hshort
          | cons c cs => exact absurd rfl (hzero c cs)
        · rfl
      have hnil := hmagnitude []
      rw [List.append_nil] at hnil
      rw [hmagnitude, hnil]
      exact settled_takeDecimal.followed cs ds h

/-- Numbers are split off without heed to how the text behind them goes on. -/
theorem settled_takeNumber : Settled takeNumber :=
  (settled_takeOne _).both (settled_takeMagnitude.both (settled_takeOne _))

/-! ## All lexemes -/

variable {l : Lexeme} {c : Char}

theorem scanNumber_followed (h : scanNumber cs = .ok l) (hrest : l.rest ≠ []) (ds : List Char) :
    scanNumber (cs ++ ds) = .ok { l with rest := l.rest ++ ds } := by
  simp only [scanNumber] at h ⊢
  split at h
  · next hnumber =>
    cases h
    rw [settled_takeNumber.followed cs ds hrest, head?_followed hrest, if_pos hnumber]
  · cases h

theorem run_followed {make : String → TokenKind} {head : List Char}
    (hrest : (run make p head cs).rest ≠ []) (ds : List Char) :
    run make p head (cs ++ ds) =
      { run make p head cs with rest := (run make p head cs).rest ++ ds } := by
  simp only [run] at hrest ⊢
  rw [takeWhile_followed hrest, dropWhile_followed hrest]

theorem scanDot_followed (h : scanDot c cs = .ok l) (hrest : l.rest ≠ []) (ds : List Char) :
    scanDot c (cs ++ ds) = .ok { l with rest := l.rest ++ ds } := by
  have hne : cs ≠ [] := by
    rintro rfl
    cases h
    exact hrest rfl
  unfold scanDot at h ⊢
  rw [head?_followed hne]
  split at h
  · next hdigit =>
    rw [if_pos hdigit]
    exact scanNumber_followed h hrest ds
  · next hdigit =>
    rw [if_neg hdigit]
    split at h
    · next hword =>
      cases h
      rw [if_pos hword, takeWhile_followed hrest, dropWhile_followed hrest]
    · next hword =>
      cases h
      rw [if_neg hword]

/-- **A lexeme with something behind it stays the same** when more text follows. -/
theorem scan_followed (h : scan c cs = .ok l) (hrest : l.rest ≠ []) (ds : List Char) :
    scan c (cs ++ ds) = .ok { l with rest := l.rest ++ ds } := by
  unfold scan at h ⊢
  split at h
  · cases h
    rfl
  · unfold scanDeclare at h
    split at h
    · cases h
      rfl
    · cases h
  · split at h
    · cases h
    · next hs =>
      cases h
      rw [scanString_followed hs ds]
  · split at h
    · cases h
    · next hs =>
      cases h
      rw [scanRaw_followed hs ds]
  · split at h
    · cases h
    · next hs =>
      cases h
      rw [scanCharacter_followed hs ds]
  · cases h
    exact congrArg _ (run_followed hrest ds)
  · exact scanDot_followed h hrest ds
  · exact scanNumber_followed h hrest ds
  · cases h
    exact congrArg _ (run_followed hrest ds)
  · cases h

end Lexeme

end Fieldwise
