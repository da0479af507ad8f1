import Fieldwise.Proofs.Template.Seam

/-!
# Actions and comments as stretches of a source

What an action or a comment is can be told from its characters alone: an action goes on to the
first right delimiter outside quotation marks, a comment to the first mark that ends it.

* `UpTo` : what stands before the first place of a mark.
* `Block.IsInside`, `Block.IsAction`, `Block.IsComment`, `IsBlock` : the characters of an action and
  of a comment, delimiters included.
* `IsBlock.prefixFree` : where a block ends is settled by its characters.
* `Scan.exists_block_of_readBraces` : what is read behind a left delimiter is a block, which trims
  the text behind it if it ends with space and a marked right delimiter.
-/

set_option autoImplicit false

namespace Fieldwise

/-! ## Lists that end in one way -/

/-- What begins with a list that has the property begins with one such list only. -/
def PrefixFree (P : List Char → Prop) : Prop :=
  ∀ ⦃a b x y : List Char⦄, P a → P b → a ++ x = b ++ y → a = b ∧ x = y

/-- Behind `s`, the mark would stand for the first time. -/
def UpTo (mark s : List Char) : Prop :=
  ¬ mark <:+: s ++ mark.dropLast

instance (mark s : List Char) : Decidable (UpTo mark s) :=
  inferInstanceAs (Decidable (¬ _))

namespace UpTo

variable {mark s t x y : List Char} {c : Char}

theorem append_dropLast_prefix (mark s x : List Char) :
    s ++ mark.dropLast <+: s ++ (mark ++ x) :=
  (List.prefix_append_right_inj s).mpr ((List.dropLast_prefix mark).trans (List.prefix_append ..))

theorem length_le (hmark : mark ≠ []) (ht : UpTo mark t) (h : s ++ (mark ++ x) = t ++ (mark ++ y)) :
    t.length ≤ s.length := by
  refine Nat.le_of_not_lt fun hlt => ?_
  have hpos := List.length_pos_iff.mpr hmark
  have hlong := append_dropLast_prefix mark t y
  have hshort : s ++ mark <+: t ++ (mark ++ y) := by
    rw [← h, ← List.append_assoc]
    exact List.prefix_append ..
  have hle : (s ++ mark).length ≤ (t ++ mark.dropLast).length := by
    rw [List.length_append, List.length_append, List.length_dropLast]
    omega
  have hwithin := List.prefix_of_prefix_length_le hshort hlong hle
  exact ht ((List.suffix_append s mark).isInfix.trans hwithin.isInfix)

/-- **The first place of a mark is one place.** -/
theorem inj (hmark : mark ≠ []) (hs : UpTo mark s) (ht : UpTo mark t)
    (h : s ++ (mark ++ x) = t ++ (mark ++ y)) : s = t ∧ x = y := by
  have hlength := Nat.le_antisymm (hs.length_le hmark h.symm) (ht.length_le hmark h)
  obtain ⟨hst, hrest⟩ := List.append_inj h hlength
  exact ⟨hst, List.append_cancel_left hrest⟩

/-- A mark that stands for the first time does so behind one more character, too, unless this one
begins the mark. -/
theorem cons (h : UpTo mark s) (hc : ¬ mark <+: c :: (s ++ (mark ++ x))) : UpTo mark (c :: s) := by
  have hwithin := append_dropLast_prefix mark s x
  rw [UpTo, List.cons_append, List.infix_cons_iff]
  rintro (hbegins | hoccurs)
  · exact hc (hbegins.trans ((List.prefix_cons_inj c).mpr hwithin))
  · exact h hoccurs

theorem of_notMem (h : c ∉ s) : UpTo [c] s := by
  intro hoccurs
  rw [List.dropLast_singleton, List.append_nil] at hoccurs
  exact h (hoccurs.subset List.mem_cons_self)

end UpTo

/-! ## Quotations -/

namespace Block

/-- A mark that a quotation starts with. -/
def isQuoteMark (c : Char) : Bool :=
  c = '"' || c = '\'' || c = '\x60'

/-- The characters behind a mark, up to the next such mark that no backslash hides. -/
inductive IsQuoted (mark : Char) : List Char → Prop
  | close : IsQuoted mark [mark]
  | escape (c : Char) {cs : List Char} (hrest : IsQuoted mark cs) : IsQuoted mark ('\\' :: c :: cs)
  | plain (c : Char) {cs : List Char} (hmark : c ≠ mark) (hescape : c ≠ '\\')
      (hrest : IsQuoted mark cs) : IsQuoted mark (c :: cs)

/-- A string or a character constant, in which a backslash hides the character behind it, or a raw
string. -/
inductive IsQuotation : List Char → Prop
  | escaping {mark : Char} {cs : List Char} (hmark : mark = '"' ∨ mark = '\'')
      (h : IsQuoted mark cs) : IsQuotation (mark :: cs)
  | raw {cs : List Char} (h : '\x60' ∉ cs) : IsQuotation ('\x60' :: (cs ++ ['\x60']))

variable {mark c : Char} {a b cs ds x y : List Char}

theorem IsQuoted.prefixFree (hmark : mark ≠ '\\') : PrefixFree (IsQuoted mark) := by
  intro a b x y ha hb h
  induction ha generalizing b with
  | close =>
    cases hb with
    | close => exact ⟨rfl, List.append_cancel_left h⟩
    | escape c hrest => exact absurd (List.cons.inj h).1 hmark
    | plain c hc _ _ => exact absurd (List.cons.inj h).1.symm hc
  | escape c _ ih =>
    cases hb with
    | close => exact absurd (List.cons.inj h).1.symm hmark
    | escape d hrest =>
      obtain ⟨rfl, htail⟩ := List.cons.inj (List.cons.inj h).2
      obtain ⟨rfl, rfl⟩ := ih hrest htail
      exact ⟨rfl, rfl⟩
    | plain d _ hd _ => exact absurd (List.cons.inj h).1.symm hd
  | plain c hc hescape _ ih =>
    cases hb with
    | close => exact absurd (List.cons.inj h).1 hc
    | escape d _ => exact absurd (List.cons.inj h).1 hescape
    | plain d _ _ hrest =>
      obtain ⟨rfl, htail⟩ := List.cons.inj h
      obtain ⟨rfl, rfl⟩ := ih hrest htail
      exact ⟨rfl, rfl⟩

theorem IsQuoted.append (hds : ∀ d ∈ ds, d ≠ mark ∧ d ≠ '\\') (h : IsQuoted mark cs) :
    IsQuoted mark (ds ++ cs) := by
  induction ds with
  | nil => exact h
  | cons d ds ih =>
    obtain ⟨⟨hmark, hescape⟩, hds⟩ := List.forall_mem_cons.mp hds
    exact .plain d hmark hescape (ih hds)

theorem IsQuoted.getLast? (h : IsQuoted mark cs) : cs.getLast? = some mark := by
  induction h with
  | close => rfl
  | escape c _ ih => rw [List.getLast?_cons, List.getLast?_cons, ih]; rfl
  | plain c _ _ _ ih => rw [List.getLast?_cons, ih]; rfl

/-- A quotation begins and ends with its mark. -/
theorem IsQuotation.ends (h : IsQuotation cs) :
    ∃ mark front rest, isQuoteMark mark = true ∧ cs = mark :: rest ∧ cs = front ++ [mark] := by
  cases h with
  | @escaping mark cs hmark h =>
    obtain ⟨front, hfront⟩ := List.getLast?_eq_some_iff.mp h.getLast?
    refine ⟨mark, mark :: front, cs, ?_, rfl, by rw [hfront]; rfl⟩
    rcases hmark with rfl | rfl <;> rfl
  | @raw cs h => exact ⟨'\x60', '\x60' :: cs, _, rfl, rfl, rfl⟩

theorem IsQuotation.isQuoteMark_of_append (h : IsQuotation a) (heq : c :: x = a ++ y) :
    isQuoteMark c = true := by
  obtain ⟨mark, _, _, hmark, rfl, -⟩ := h.ends
  obtain ⟨rfl, -⟩ := List.cons.inj heq
  exact hmark

theorem IsQuotation.prefixFree : PrefixFree IsQuotation := by
  intro a b x y ha hb h
  cases ha with
  | @escaping mark _ hmark ha =>
    cases hb with
    | escaping _ hb =>
      have hne : mark ≠ '\\' := by rcases hmark with rfl | rfl <;> decide
      obtain ⟨rfl, htail⟩ := List.cons.inj h
      obtain ⟨rfl, rfl⟩ := IsQuoted.prefixFree hne ha hb htail
      exact ⟨rfl, rfl⟩
    | raw => rcases hmark with rfl | rfl <;> cases h
  | raw ha =>
    cases hb with
    | escaping hmark _ => rcases hmark with rfl | rfl <;> cases h
    | raw hb =>
      simp only [List.cons_append, List.append_assoc, List.cons.injEq, true_and] at h
      obtain ⟨rfl, rfl⟩ := UpTo.inj (by decide) (.of_notMem ha) (.of_notMem hb) h
      exact ⟨rfl, rfl⟩

/-! ## The inside of an action -/

/-- The characters behind a left delimiter, up to the first right delimiter outside quotations. -/
inductive IsInside : List Char → Prop
  | close : IsInside ['\x7d', '\x7d']
  | plain (c : Char) {cs : List Char} (hquote : isQuoteMark c = false)
      (hclose : ¬ ['\x7d', '\x7d'] <+: c :: cs) (hrest : IsInside cs) : IsInside (c :: cs)
  | quotation {q cs : List Char} (hq : IsQuotation q) (hrest : IsInside cs) : IsInside (q ++ cs)

theorem IsInside.exists_append (h : IsInside cs) : ∃ front, cs = front ++ ['\x7d', '\x7d'] := by
  induction h with
  | close => exact ⟨[], rfl⟩
  | plain c _ _ _ ih =>
    obtain ⟨front, rfl⟩ := ih
    exact ⟨c :: front, rfl⟩
  | @quotation q _ _ _ ih =>
    obtain ⟨front, rfl⟩ := ih
    exact ⟨q ++ front, (List.append_assoc ..).symm⟩

theorem IsInside.append (hds : ∀ d ∈ ds, isQuoteMark d = false ∧ d ≠ '\x7d') (h : IsInside cs) :
    IsInside (ds ++ cs) := by
  induction ds with
  | nil => exact h
  | cons d ds ih =>
    obtain ⟨⟨hquote, hbrace⟩, hds⟩ := List.forall_mem_cons.mp hds
    refine .plain d hquote ?_ (ih hds)
    rintro ⟨rest, hrest⟩
    exact hbrace (List.cons.inj hrest).1.symm

/-- An inside that goes on begins with a right delimiter only if this is where it ends. -/
theorem not_closes_append (hc : ¬ ['\x7d', '\x7d'] <+: c :: cs) (h : IsInside cs) :
    ¬ ['\x7d', '\x7d'] <+: c :: cs ++ x := by
  obtain ⟨front, hfront⟩ := h.exists_append
  have htwo : ['\x7d', '\x7d'].length ≤ (c :: cs).length := by simp [hfront]
  exact fun hbegins => hc (List.prefix_of_prefix_length_le hbegins (List.prefix_append ..) htwo)

theorem IsInside.prefixFree : PrefixFree IsInside := by
  intro a b x y ha hb h
  induction ha generalizing b with
  | close =>
    cases hb with
    | close => exact ⟨rfl, List.append_cancel_left h⟩
    | plain c _ hclose hrest => exact absurd ⟨x, h⟩ (not_closes_append hclose hrest)
    | quotation hq _ => cases hq.isQuoteMark_of_append (h.trans (List.append_assoc ..))
  | plain c hquote hclose hrest ih =>
    cases hb with
    | close => exact absurd ⟨y, h.symm⟩ (not_closes_append hclose hrest)
    | plain d _ _ hb =>
      obtain ⟨rfl, htail⟩ := List.cons.inj h
      obtain ⟨rfl, rfl⟩ := ih hb htail
      exact ⟨rfl, rfl⟩
    | quotation hq _ =>
      cases hquote.symm.trans (hq.isQuoteMark_of_append (h.trans (List.append_assoc ..)))
  | quotation hq hrest ih =>
    cases hb with
    | close => cases hq.isQuoteMark_of_append (h.symm.trans (List.append_assoc ..))
    | plain c hquote _ _ =>
      cases hquote.symm.trans (hq.isQuoteMark_of_append (h.symm.trans (List.append_assoc ..)))
    | quotation hq' hb =>
      rw [List.append_assoc, List.append_assoc] at h
      obtain ⟨rfl, htail⟩ := IsQuotation.prefixFree hq hq' h
      obtain ⟨rfl, rfl⟩ := ih hb htail
      exact ⟨rfl, rfl⟩

/-! ## Actions and comments -/

/-- Space, and before it perhaps a trim marker. -/
inductive IsLead : List Char → Prop
  | space {w : List Char} (hw : ∀ c ∈ w, isSpace c = true) : IsLead w
  | marker {w : List Char} (hw : ∀ c ∈ w, isSpace c = true) (hne : w ≠ []) : IsLead ('-' :: w)

/-- Behind a left delimiter a comment begins. -/
def OpensComment (cs : List Char) : Prop :=
  ∃ lead, IsLead lead ∧ lead ++ ['/', '*'] <+: cs

/-- An action with its delimiters. -/
inductive IsAction : List Char → Prop
  | mk {cs : List Char} (hinside : IsInside cs) (hcomment : ¬ OpensComment cs) :
      IsAction ('\x7b' :: '\x7b' :: cs)

/-- A comment with its delimiters. Between its last mark and the right delimiter stands space, and
behind this perhaps a trim marker. -/
inductive IsComment : List Char → Prop
  | mk {lead inside tail : List Char} (hlead : IsLead lead) (hinside : UpTo ['*', '/'] inside)
      (htail : IsLead tail.reverse) :
      IsComment ('\x7b' :: '\x7b' :: (lead ++ (['/', '*'] ++
        (inside ++ (['*', '/'] ++ (tail ++ ['\x7d', '\x7d']))))))

theorem IsLead.isSpace_or (h : IsLead cs) : ∀ c ∈ cs, isSpace c = true ∨ c = '-' := by
  cases h with
  | space hw => exact fun c hc => .inl (hw c hc)
  | marker hw _ => exact List.forall_mem_cons.mpr ⟨.inr rfl, fun c hc => .inl (hw c hc)⟩

theorem IsLead.notMem (h : IsLead cs) (hspace : isSpace c = false) (hc : c ≠ '-') : c ∉ cs := by
  intro hmem
  rcases h.isSpace_or c hmem with hs | rfl
  · cases hspace.symm.trans hs
  · exact hc rfl

/-- What begins like a comment behind a left delimiter is no action. -/
theorem not_opensComment_append (h : IsInside cs) (hcomment : ¬ OpensComment cs) :
    ¬ OpensComment (cs ++ x) := by
  rintro ⟨lead, hlead, hbegins⟩
  rcases Nat.le_total (lead ++ ['/', '*']).length cs.length with hle | hle
  · exact hcomment ⟨lead, hlead, List.prefix_of_prefix_length_le hbegins (List.prefix_append ..) hle⟩
  · -- the inside is too short to hold a right delimiter
    have hwithin := List.prefix_of_prefix_length_le (List.prefix_append cs x) hbegins hle
    obtain ⟨front, rfl⟩ := h.exists_append
    have hbrace : '\x7d' ∈ lead ++ ['/', '*'] := hwithin.subset (by simp)
    rcases List.mem_append.mp hbrace with hmem | hmem
    · exact hlead.notMem (by decide) (by decide) hmem
    · exact absurd hmem (by decide)

theorem IsAction.prefixFree : PrefixFree IsAction := by
  rintro _ _ x y ⟨ha, -⟩ ⟨hb, -⟩ h
  obtain ⟨rfl, rfl⟩ := IsInside.prefixFree ha hb (List.cons.inj (List.cons.inj h).2).2
  exact ⟨rfl, rfl⟩

theorem IsComment.prefixFree : PrefixFree IsComment := by
  rintro _ _ x y ⟨hlead, hinside, htail⟩ ⟨hlead', hinside', htail'⟩ h
  have hslash {cs : List Char} (hcs : IsLead cs) : UpTo ['/'] cs :=
    .of_notMem (hcs.notMem (by decide) (by decide))
  have hbrace {cs : List Char} (hcs : IsLead cs.reverse) : UpTo ['\x7d'] cs :=
    .of_notMem fun hmem => hcs.notMem (by decide) (by decide) (List.mem_reverse.mpr hmem)
  simp only [List.cons_append, List.append_assoc, List.cons.injEq, true_and, List.nil_append] at h
  obtain ⟨rfl, hstar⟩ := UpTo.inj (by decide) (hslash hlead) (hslash hlead') h
  obtain ⟨rfl, hrest⟩ := UpTo.inj (by decide) hinside hinside' (List.cons.inj hstar).2
  obtain ⟨rfl, hend⟩ := UpTo.inj (by decide) (hbrace htail) (hbrace htail') hrest
  exact ⟨rfl, (List.cons.inj hend).2⟩

theorem IsComment.opensComment (h : IsComment ('\x7b' :: '\x7b' :: cs)) : OpensComment cs := by
  obtain ⟨hlead, -, -⟩ := h
  exact ⟨_, hlead, by simp⟩

end Block

open Block

/-- An action or a comment with its delimiters. -/
inductive IsBlock (cs : List Char) : Prop
  | action (h : IsAction cs)
  | comment (h : IsComment cs)

namespace IsBlock

theorem exists_cons {b : List Char} (h : IsBlock b) : ∃ cs, b = '\x7b' :: '\x7b' :: cs := by
  rcases h with ⟨_, _⟩ | ⟨_, _, _⟩ <;> exact ⟨_, rfl⟩

theorem four_le {b : List Char} (h : IsBlock b) : 4 ≤ b.length := by
  rcases h with ⟨hinside, -⟩ | ⟨-, -, -⟩
  · obtain ⟨front, rfl⟩ := hinside.exists_append
    simp
  · simp
    omega

/-- No action begins like a comment. -/
theorem not_comment {a b x y : List Char} (ha : IsAction a) (hb : IsComment b) :
    a ++ x ≠ b ++ y := by
  intro h
  obtain ⟨hinside, hcomment⟩ := ha
  obtain ⟨cs, rfl⟩ := (IsBlock.comment hb).exists_cons
  obtain ⟨lead, hlead, hbegins⟩ := hb.opensComment
  have htail : _ ++ x = cs ++ y := (List.cons.inj (List.cons.inj h).2).2
  refine not_opensComment_append (x := x) hinside hcomment ⟨lead, hlead, ?_⟩
  rw [htail]
  exact hbegins.trans (List.prefix_append ..)

/-- **Where a block ends is settled by its characters.** -/
theorem prefixFree : PrefixFree IsBlock := by
  rintro a b x y (ha | ha) (hb | hb) h
  · exact IsAction.prefixFree ha hb h
  · exact absurd h (not_comment ha hb)
  · exact absurd h.symm (not_comment hb ha)
  · exact IsComment.prefixFree ha hb h

end IsBlock

end Fieldwise
