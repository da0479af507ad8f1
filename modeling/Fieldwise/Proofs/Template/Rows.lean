import Fieldwise.Proofs.Outcome
import Fieldwise.Proofs.Template.Spelling
import Fieldwise.Proofs.Template.Stretches

/-!
# Actions are read without a gap

Inside an action the lexemes of its tokens stand one behind the other, with nothing but space
between them. Each token has the line and the column at which its lexeme begins.

* `placeBehind` : line and column, counted in the characters in front.
* `Scan.IsRow`, `Scan.IsActionRow` : the tokens of an action and the characters that they are
  written in.
* `Scan.IsReading` : the tokens of a source, block by block.
* `Scan.Ascending` : tokens one behind the other, which rows and readings are.
* `Scan.isReading_ofSource` : what is read of a source is such a reading.

Reading an action carries along which characters stand in front of the place at hand: `Precedes`
says whether space does.
-/

set_option autoImplicit false

namespace Fieldwise

open Block

/-! ## Places in order -/

/-- Line and column behind some first characters of a source. -/
def placeBehind (before : List Char) : Pos :=
  ⟨1 + before.count '\n', 1 + (before.rtakeWhile (· != '\n')).length⟩

theorem placeBehind_append (before cs : List Char) :
    placeBehind (before ++ cs) = (placeBehind before).afterAll cs := by
  rw [placeBehind, ← Pos.afterAll_start, Pos.afterAll_append, Pos.afterAll_start, placeBehind]

theorem isBoundary_placeBehind {before source : List Char} (h : before <+: source) :
    IsBoundary source (placeBehind before) :=
  ⟨before, h, Pos.afterAll_start before⟩

namespace Pos

/-- On an earlier line, or on the same line and in an earlier column. -/
def Before (p q : Pos) : Prop :=
  p.line < q.line ∨ p.line = q.line ∧ p.column < q.column

theorem before_after (p : Pos) (c : Char) : p.Before (p.after c) := by
  rw [after]
  split
  · exact .inl (Nat.lt_succ_self _)
  · exact .inr ⟨rfl, Nat.lt_succ_self _⟩

theorem Before.trans {p q r : Pos} (h : p.Before q) (h' : q.Before r) : p.Before r := by
  unfold Before at *
  omega

theorem before_afterAll (p : Pos) {cs : List Char} (h : cs ≠ []) : p.Before (p.afterAll cs) := by
  induction cs generalizing p with
  | nil => exact absurd rfl h
  | cons c cs ih =>
    rw [afterAll_cons]
    cases cs with
    | nil => exact p.before_after c
    | cons d cs => exact (p.before_after c).trans (ih _ (List.cons_ne_nil d cs))

end Pos

theorem placeBehind_before (before : List Char) {cs : List Char} (h : cs ≠ []) :
    (placeBehind before).Before (placeBehind (before ++ cs)) :=
  placeBehind_append before cs ▸ Pos.before_afterAll _ h

namespace Scan

variable {source before block w chars rest cs ds : List Char} {kind : TokenKind} {t : Token}
  {ts us : List Token} {opened pos : Pos} {trims space : Bool} {closing : Closing} {scan : Scan}

/-! ## The tokens of an action -/

/-- A token whose lexeme stands behind `before`. -/
def tokenBehind (before : List Char) (kind : TokenKind) : Token :=
  ⟨kind, placeBehind before, endsInSpace before⟩

/-- Tokens up to a right delimiter, and the characters that they are written in, which stand behind
`before`. Between lexemes stands space only, and before a right delimiter with a trim marker some
space does. -/
inductive IsRow : List Char → List Char → List Token → Prop
  | lexeme {before w chars rest : List Char} {kind : TokenKind} {ts : List Token}
      (hw : ∀ c ∈ w, isSpace c = true) (h : kind.SpelledBy chars)
      (hrest : IsRow (before ++ w ++ chars) rest ts) :
      IsRow before (w ++ (chars ++ rest)) (tokenBehind (before ++ w) kind :: ts)
  | close {before w : List Char} (hw : ∀ c ∈ w, isSpace c = true) :
      IsRow before (w ++ ['\x7d', '\x7d']) [tokenBehind (before ++ w) .rightDelim]
  | closeTrimming {before w : List Char} (hw : ∀ c ∈ w, isSpace c = true)
      (hspace : endsInSpace (before ++ w) = true) :
      IsRow before (w ++ ['-', '\x7d', '\x7d']) [tokenBehind (before ++ w) .rightDelim]

/-- The tokens of an action, and its characters, which stand behind `before`. A hyphen behind the
left delimiter belongs to it if, and only if, space follows. -/
inductive IsActionRow (before : List Char) : List Char → List Token → Prop
  | plain {cs : List Char} {ts : List Token} (hmark : opensTrimming (delimiter ++ cs) = false)
      (h : IsRow (before ++ delimiter) cs ts) :
      IsActionRow before (delimiter ++ cs) (⟨.leftDelim, placeBehind before, false⟩ :: ts)
  | trimming {cs : List Char} {ts : List Token}
      (hmark : opensTrimming (delimiter ++ '-' :: cs) = true)
      (h : IsRow (before ++ delimiter ++ ['-']) cs ts) :
      IsActionRow before (delimiter ++ '-' :: cs) (⟨.leftDelim, placeBehind before, false⟩ :: ts)

/-- The tokens of some passages and of the text behind them, up to the end of the source. The
passages stand behind `before`, which ends with `block` if this is given. -/
inductive IsReading : List Char → Option (List Char) → List Passage → List Char → List Token → Prop
  | last {before text : List Char} {block : Option (List Char)} :
      IsReading before block [] text (Stretch.tokens ⟨placeBehind before, block, text, none⟩ ++
        [⟨.eof, placeBehind (before ++ text), false⟩])
  | action {before last : List Char} {block : Option (List Char)} {p : Passage}
      {rest : List Passage} {row ts : List Token} (hp : IsAction p.block)
      (hrow : IsActionRow (before ++ p.text) p.block row)
      (hrest : IsReading (before ++ p.chars) (some p.block) rest last ts) :
      IsReading before block (p :: rest) last
        (Stretch.tokens ⟨placeBehind before, block, p.text, some p.block⟩ ++ (row ++ ts))
  | comment {before last : List Char} {block : Option (List Char)} {p : Passage}
      {rest : List Passage} {ts : List Token} (hp : IsComment p.block)
      (hrest : IsReading (before ++ p.chars) (some p.block) rest last ts) :
      IsReading before block (p :: rest) last
        (Stretch.tokens ⟨placeBehind before, block, p.text, some p.block⟩ ++ ts)

/-! ## What is read is a row -/

theorem IsRow.behind_space (hw : ∀ c ∈ w, isSpace c = true) (h : IsRow (before ++ w) cs ts) :
    IsRow before (w ++ cs) ts := by
  have hall {v : List Char} (hv : ∀ c ∈ v, isSpace c = true) : ∀ c ∈ w ++ v, isSpace c = true :=
    List.forall_mem_append.mpr ⟨hw, hv⟩
  generalize hfront : before ++ w = front at h
  cases h with
  | lexeme hv h hrest =>
    subst hfront
    rw [List.append_assoc before] at hrest ⊢
    rw [← List.append_assoc w]
    exact .lexeme (hall hv) h hrest
  | close hv =>
    subst hfront
    rw [List.append_assoc before, ← List.append_assoc w]
    exact .close (hall hv)
  | closeTrimming hv hspace =>
    subst hfront
    rw [List.append_assoc before] at hspace ⊢
    rw [← List.append_assoc w]
    exact .closeTrimming (hall hv) hspace

/-- A row ends with a right delimiter. -/
theorem IsRow.two_le (h : IsRow before cs ts) : 2 ≤ cs.length := by
  induction h with
  | lexeme _ _ _ ih =>
    rw [List.length_append, List.length_append]
    omega
  | close | closeTrimming =>
    rw [List.length_append]
    exact Nat.le_add_left_of_le (by decide)

theorem tokenBehind_eq (h : Precedes before space) (kind : TokenKind) :
    tokenBehind (before ++ []) kind = ⟨kind, placeBehind before, space⟩ := by
  rw [List.append_nil, tokenBehind, h.space]

/-- **What is read of an action is a row.** -/
theorem isRow_of_readAction {body : Body} (h : readAction opened pos space cs = .ok body) :
    ∀ before, Precedes before space → pos = placeBehind before → ∃ inside,
      cs = inside ++ body.closing.rest ∧ IsRow before inside (body.tokens ++ [body.close]) := by
  induction h using readAction_induction with
  | space pos _ c tail body hc _ _ ih =>
    rintro before - rfl
    obtain ⟨inside, rfl, hrow⟩ := ih (before ++ [c]) (.of_isSpace hc before)
      (placeBehind_append before [c]).symm
    exact ⟨[c] ++ inside, rfl, hrow.behind_space (List.forall_mem_singleton.mpr hc)⟩
  | trimming pos c tail _ htrim _ =>
    rintro before hbefore rfl
    rw [closesTrimming_eq, decide_eq_true_iff] at htrim
    have hrow := @IsRow.closeTrimming before [] (by simp) (by rw [List.append_nil, hbefore.space])
    rw [tokenBehind_eq hbefore] at hrow
    exact ⟨['-', '\x7d', '\x7d'], by rw [← htrim, List.take_append_drop], hrow⟩
  | closing pos space c tail _ _ hclose _ =>
    rintro before hbefore rfl
    rw [closes_eq, decide_eq_true_iff] at hclose
    have hrow := @IsRow.close before [] (by simp)
    rw [tokenBehind_eq hbefore] at hrow
    exact ⟨['\x7d', '\x7d'], by rw [← hclose, List.take_append_drop], hrow⟩
  | lexeme _ _ c tail l body _ _ _ hs _ _ ih =>
    rintro before hbefore rfl
    have hwritten := Lexeme.isWritten_scan hs
    obtain ⟨inside, hrest, hrow⟩ := ih (before ++ l.chars) (.of_isWritten hwritten before)
      (placeBehind_append before l.chars).symm
    have hcons := @IsRow.lexeme before [] _ inside _ _ (by simp) (Lexeme.spelledBy_scan hs)
      (by rwa [List.append_nil])
    rw [tokenBehind_eq hbefore] at hcons
    refine ⟨l.chars ++ inside, ?_, hcons⟩
    rw [List.append_assoc, ← hrest, Lexeme.chars_append_rest hs]

/-- Behind a left delimiter, perhaps with a trim marker, and space an action is read. -/
theorem exists_readAction_of_readBraces {a : Action}
    (h : readBraces opened cs = .ok (some a, closing)) :
    ∃ body, readAction opened
      ((opened.afterAll (if opensTrimming cs then cs.take 3 else cs.take 2)).afterAll
        ((behindDelim cs).takeWhile isSpace))
      (!((behindDelim cs).takeWhile isSpace).isEmpty) ((behindDelim cs).dropWhile isSpace) =
        .ok body ∧ a = ⟨opened, body.tokens, body.close⟩ ∧ closing = body.closing := by
  rw [readBraces_eq] at h
  dsimp only at h
  split at h
  · split at h <;> cases h
  split at h
  · cases h
  · next body hread =>
    cases h
    exact ⟨body, hread, rfl, rfl⟩

theorem four_le_append (h : 2 ≤ cs.length) : 4 ≤ (delimiter ++ cs).length :=
  Nat.add_le_add_right h 2

theorem exists_of_opensTrimming (h : opensTrimming (delimiter ++ cs) = true) :
    ∃ tail, cs = '-' :: tail := by
  rw [opensTrimming_eq, Bool.and_eq_true_iff, decide_eq_true_iff] at h
  cases cs with
  | nil => cases h.1
  | cons c tail =>
    cases h.1
    exact ⟨tail, rfl⟩

/-- The row of an action begins with the space behind its left delimiter, which is read beforehand. -/
theorem exists_row_behind {body : Body} (hbefore : Precedes before false)
    (h : readAction opened (placeBehind (before ++ cs.takeWhile isSpace))
      (!(cs.takeWhile isSpace).isEmpty) (cs.dropWhile isSpace) = .ok body) :
    ∃ inside, cs = inside ++ body.closing.rest ∧
      IsRow before inside (body.tokens ++ [body.close]) := by
  have hspace : ∀ c ∈ cs.takeWhile isSpace, isSpace c = true := fun c => List.mem_takeWhile_imp
  obtain ⟨inside, hinside, hrow⟩ := isRow_of_readAction h _ (hbefore.append_space hspace) rfl
  refine ⟨cs.takeWhile isSpace ++ inside, ?_, hrow.behind_space hspace⟩
  rw [List.append_assoc, ← hinside, List.takeWhile_append_dropWhile]

/-- The tokens of an action that is read are written in its characters. -/
theorem exists_row_of_readBraces {a : Action}
    (h : readBraces (placeBehind before) (delimiter ++ cs) = .ok (some a, closing)) :
    ∃ block, delimiter ++ cs = block ++ closing.rest ∧
      IsActionRow before block (Segment.action a).tokens := by
  obtain ⟨body, hread, rfl, rfl⟩ := exists_readAction_of_readBraces h
  have hdelim : Precedes (before ++ delimiter) false := by
    rw [show before ++ delimiter = before ++ ['\x7b'] ++ ['\x7b'] by simp [delimiter]]
    exact .concat (by decide) _
  rw [← placeBehind_append, ← placeBehind_append] at hread
  rcases hmark : opensTrimming (delimiter ++ cs) with _ | _
  · rw [behindDelim, hmark] at hread
    obtain ⟨inside, hinside, hrow⟩ := exists_row_behind hdelim hread
    obtain rfl : cs = inside ++ body.closing.rest := hinside
    rw [← List.append_assoc, opensTrimming_followed (four_le_append hrow.two_le)] at hmark
    exact ⟨_, (List.append_assoc ..).symm, .plain hmark hrow⟩
  · obtain ⟨tail, rfl⟩ := exists_of_opensTrimming hmark
    have hmarked : Precedes (before ++ delimiter ++ ['-']) false := by
      refine ⟨endsInSpace_concat _ _, ?_⟩
      rw [endsInMarker_concat, hdelim.space]
      rfl
    rw [behindDelim, hmark] at hread
    rw [List.append_assoc] at hmarked
    obtain ⟨inside, hinside, hrow⟩ := exists_row_behind hmarked hread
    obtain rfl : tail = inside ++ body.closing.rest := hinside
    have hlong : 2 ≤ ('-' :: inside).length := Nat.le_succ_of_le hrow.two_le
    rw [← List.cons_append, ← List.append_assoc, opensTrimming_followed (four_le_append hlong)]
      at hmark
    rw [← List.append_assoc] at hrow
    exact ⟨_, (List.append_assoc delimiter ('-' :: inside) _).symm, .trimming hmark hrow⟩

/-- Where nothing is read of a block, it is a comment, and where an action is read, an action. -/
theorem kind_of_readBraces {action : Option Action} (hblock : IsBlock block)
    (hcs : cs = block ++ closing.rest) (h : readBraces opened cs = .ok (action, closing)) :
    if action.isSome then IsAction block else IsComment block := by
  obtain ⟨inside, rfl⟩ := hblock.exists_cons
  subst hcs
  rcases readBraces_cases h with ⟨hopens, rfl, -⟩ | ⟨hopens, _, _, -, rfl, -⟩
  · rcases hblock with haction | hcomment
    · obtain ⟨hinside, hnot⟩ := haction
      exact absurd (OpensComment.of_behindLead hopens) (not_opensComment_append hinside hnot)
    · exact hcomment
  · rcases hblock with haction | hcomment
    · exact haction
    · obtain ⟨lead, hlead, hbegins⟩ := hcomment.opensComment
      have hcomment : OpensComment (inside ++ closing.rest) :=
        ⟨lead, hlead, hbegins.trans (List.prefix_append ..)⟩
      cases hopens.symm.trans (opensComment_behindLead hcomment)

/-- **A passage is read**, and after it what stands behind it. -/
theorem IsReading.cons {p : Passage} {passages : List Passage} {last : List Char}
    {action : Option Action}
    (hbraces : readBraces (placeBehind (before ++ p.text)) (p.block ++ closing.rest) =
      .ok (action, closing))
    (hrest : IsReading (before ++ p.chars) (some p.block) passages last ts)
    (previous : Option (List Char)) :
    IsReading before previous (p :: passages) last
      (Stretch.tokens ⟨placeBehind before, previous, p.text, some p.block⟩ ++
        (actionTokens action ++ ts)) := by
  have hkind := kind_of_readBraces p.isBlock rfl hbraces
  cases action with
  | none => exact .comment hkind hrest
  | some a =>
    obtain ⟨more, -, hmore⟩ := p.chars_eq
    rw [hmore, List.append_assoc] at hbraces
    obtain ⟨block, hblock, hrow⟩ := exists_row_of_readBraces hbraces
    rw [← List.append_assoc, ← hmore] at hblock
    cases List.append_cancel_right hblock
    have htokens : actionTokens (some a) = (Segment.action a).tokens := List.append_nil _
    exact htokens ▸ .action hkind hrow hrest

/-- **The passages of a source are read one by one**, whatever block stands before them. -/
theorem exists_reading_of_readSegments (h : readSegments pos trims cs = .ok scan) :
    ∀ before, pos = placeBehind before → ∃ layout : Layout cs, ∀ previous : Option (List Char),
      previous.any endsTrimming = trims →
      IsReading before previous layout.passages layout.last scan.tokens := by
  induction h using readSegments_induction with
  | finish pos trims cs hnil _ =>
    rintro before rfl
    have hcs : (splitText cs).1 = cs := by
      have happend := splitText_append cs
      rwa [hnil, List.append_nil] at happend
    refine ⟨⟨[], cs, rfl, not_infix_of_splitText hnil⟩, fun previous htrims => ?_⟩
    have hlast : IsReading before previous [] cs _ := .last
    rw [Stretch.tokens_eq, htrims, placeBehind_append] at hlast
    rw [tokens_eq_content, hcs]
    exact hlast
  | braces pos trims cs action closing scan hne hbraces hrest h ih =>
    rintro before rfl
    have hstands : StandsAt (before ++ cs) (placeBehind before) cs :=
      ⟨before, rfl, Pos.afterAll_start before⟩
    obtain ⟨p, htext, hsplit, hchars, -, hpos, hends, hopens⟩ :=
      exists_passage_of_readBraces hne hbraces hstands
    obtain ⟨layout, hlayout⟩ := ih (before ++ p.chars) (by rw [hpos, placeBehind_append])
    refine ⟨⟨p :: layout.passages, layout.last, ?_, layout.closed⟩, fun previous htrims => ?_⟩
    · rw [List.flatMap_cons, List.append_assoc, layout.covers, hchars]
    obtain ⟨u, hu, hcontent⟩ := readSegments_of_readBraces (placeBehind before) trims hne hbraces
      hrest
    cases h.symm.trans hu
    have hread : readBraces (placeBehind (before ++ p.text)) (p.block ++ closing.rest) =
        .ok (action, closing) := by
      rwa [placeBehind_append, htext, ← hsplit]
    have htokens := Stretch.tokens_eq (placeBehind before) previous p.text (some p.block)
    rw [htrims, Option.any_some, ← hopens, htext] at htokens
    have hcons := IsReading.cons hread (hlayout (some p.block) hends) previous
    rw [htext, htokens, tokens_eq_content, ← List.append_assoc (actionTokens action),
      ← List.append_assoc, ← hcontent] at hcons
    exact hcons

/-! ## Places only grow -/

/-- Tokens that stand in `cs`, which stands behind `before`, one behind the other. -/
structure Ascending (before cs : List Char) (ts : List Token) : Prop where
  pairwise : ts.Pairwise fun t u => t.pos.Before u.pos
  within : ∀ t ∈ ts, ∃ w x, x ≠ [] ∧ w ++ x = cs ∧ t.pos = placeBehind (before ++ w)

namespace Ascending

theorem nil (before cs : List Char) : Ascending before cs [] :=
  ⟨.nil, fun _ ht => absurd ht List.not_mem_nil⟩

theorem singleton (hcs : cs ≠ []) (ht : t.pos = placeBehind before) :
    Ascending before cs [t] := by
  refine ⟨List.pairwise_singleton _ _, List.forall_mem_singleton.mpr ⟨[], cs, hcs, rfl, ?_⟩⟩
  rw [ht, List.append_nil]

theorem append (h : Ascending before cs ts) (h' : Ascending (before ++ cs) ds us) :
    Ascending before (cs ++ ds) (ts ++ us) := by
  refine ⟨List.pairwise_append.mpr ⟨h.pairwise, h'.pairwise, fun t ht u hu => ?_⟩,
    List.forall_mem_append.mpr ⟨fun t ht => ?_, fun u hu => ?_⟩⟩
  · obtain ⟨w, x, hx, rfl, htpos⟩ := h.within t ht
    obtain ⟨w', -, -, -, hupos⟩ := h'.within u hu
    have hbetween : x ++ w' ≠ [] := by simp [hx]
    have hfront : before ++ (w ++ x) ++ w' = before ++ w ++ (x ++ w') := by simp
    rw [htpos, hupos, hfront]
    exact placeBehind_before _ hbetween
  · obtain ⟨w, x, hx, rfl, hpos⟩ := h.within t ht
    exact ⟨w, x ++ ds, by simp [hx], (List.append_assoc ..).symm, hpos⟩
  · obtain ⟨w, x, hx, rfl, hpos⟩ := h'.within u hu
    exact ⟨cs ++ w, x, hx, List.append_assoc .., by rw [hpos, List.append_assoc]⟩

end Ascending

theorem IsRow.ascending (h : IsRow before cs ts) : Ascending before cs ts := by
  induction h with
  | lexeme _ h _ ih =>
    exact (Ascending.nil _ _).append ((Ascending.singleton h.ne_nil rfl).append ih)
  | close _ => exact (Ascending.nil _ _).append (.singleton (List.cons_ne_nil _ _) rfl)
  | closeTrimming _ _ => exact (Ascending.nil _ _).append (.singleton (List.cons_ne_nil _ _) rfl)

theorem IsActionRow.ascending (h : IsActionRow before cs ts) : Ascending before cs ts := by
  cases h with
  | plain _ h => exact (Ascending.singleton (List.cons_ne_nil _ _) rfl).append h.ascending
  | trimming _ h =>
    have hmarked := (Ascending.nil _ ['-']).append h.ascending
    exact (Ascending.singleton (List.cons_ne_nil _ _) rfl).append hmarked

theorem ascending_stretch (before text : List Char) (previous next : Option (List Char)) :
    Ascending before text (Stretch.tokens ⟨placeBehind before, previous, text, next⟩) := by
  rw [Stretch.tokens]
  split
  · exact .nil _ _
  · next hkept =>
    refine .singleton ?_ rfl
    rintro rfl
    simp [Stretch.kept] at hkept

theorem Ascending.passage {p : Passage} (hrow : Ascending (before ++ p.text) p.block us)
    (h : Ascending (before ++ p.chars) cs ts) (previous : Option (List Char)) :
    Ascending before (p.chars ++ cs)
      (Stretch.tokens ⟨placeBehind before, previous, p.text, some p.block⟩ ++ (us ++ ts)) := by
  rw [Passage.chars, ← List.append_assoc] at h
  rw [Passage.chars, List.append_assoc]
  exact (ascending_stretch before p.text previous (some p.block)).append (hrow.append h)

/-- Places grow along a reading, and the last is the one of the end. -/
theorem IsReading.ascending {passages : List Passage} {last : List Char}
    {previous : Option (List Char)} (h : IsReading before previous passages last ts) :
    ∃ content, ts = content ++ [⟨.eof,
      placeBehind (before ++ (passages.flatMap Passage.chars ++ last)), false⟩] ∧
      Ascending before (passages.flatMap Passage.chars ++ last) content := by
  induction h with
  | @last before text previous => exact ⟨_, rfl, ascending_stretch before text previous none⟩
  | @action before last previous p rest row ts hp hrow _ ih =>
    obtain ⟨content, rfl, hcontent⟩ := ih
    rw [List.flatMap_cons, List.append_assoc p.chars]
    refine ⟨_, ?_, hrow.ascending.passage hcontent previous⟩
    simp only [List.append_assoc]
  | @comment before last previous p rest ts hp _ ih =>
    obtain ⟨content, rfl, hcontent⟩ := ih
    rw [List.flatMap_cons, List.append_assoc p.chars]
    refine ⟨_, ?_, (Ascending.nil _ p.block).passage hcontent previous⟩
    simp only [List.nil_append, List.append_assoc]

/-! ## Whole sources -/

/-- **No character inside an action is dropped or read twice.** A source that is read has one
layout: stretches of text and the blocks around them. An action ends at the first right delimiter
outside quotations. What stands between its delimiters, to which trim markers belong, are the
lexemes of its tokens, in order and with nothing but space between them, and each of its tokens
tells the place where its lexeme begins and whether space stands directly before it. Comments have no
tokens. Places grow from each token to the next, up to the end of the source, and for sources of the
given length lines and columns fit into 32 bits. -/
theorem isReading_ofSource {source : String} (hlength : source.length < UInt32.size - 1)
    (h : ofSource source = .ok scan) :
    ∃ layout : Layout source.toList, (∀ other : Layout source.toList, other = layout) ∧
      IsReading [] none layout.passages layout.last scan.tokens ∧
      (scan.tokens.Pairwise fun t u => t.pos.Before u.pos) ∧
      ∀ t ∈ scan.tokens, t.pos.line < UInt32.size ∧ t.pos.column < UInt32.size := by
  obtain ⟨layout, hlayout⟩ := exists_reading_of_readSegments h [] rfl
  have hreading := hlayout none rfl
  obtain ⟨content, htokens, hcontent⟩ := hreading.ascending
  rw [List.nil_append, layout.covers] at htokens
  rw [layout.covers] at hcontent
  have hplaced : ∀ t ∈ scan.tokens, IsBoundary source.toList t.pos := by
    rw [htokens]
    refine List.forall_mem_append.mpr ⟨fun t ht => ?_, List.forall_mem_singleton.mpr ?_⟩
    · obtain ⟨w, x, -, hw, hpos⟩ := hcontent.within t ht
      exact hpos ▸ isBoundary_placeBehind ⟨x, hw⟩
    · exact isBoundary_placeBehind (List.prefix_refl _)
  refine ⟨layout, fun other => other.unique layout, hreading, ?_, fun t ht => ?_⟩
  · rw [htokens]
    refine List.pairwise_append.mpr ⟨hcontent.pairwise, List.pairwise_singleton _ _, ?_⟩
    intro t ht u hu
    obtain ⟨w, x, hx, hw, hpos⟩ := hcontent.within t ht
    rw [hpos, List.mem_singleton.mp hu, List.nil_append, ← hw]
    exact placeBehind_before w hx
  · have hline := (hplaced t ht).line_le
    have hcolumn := (hplaced t ht).column_le
    rw [String.length_toList] at hline hcolumn
    omega

/-- Right delimiters inside a comment, a character constant, a string and a raw string close no
action; the raw string goes on over a line feed, and an escape makes the string shorter than what it
is written as. -/
theorem isReading_ofSource_quotations :
    let source := "a \x7b\x7b- /* \x7d\x7d */ -\x7d\x7d\n\x7b\x7b$x:=.A|f -3 '\x7d\x7d'\n" ++
      "\"\x7d\x7d\\u0041\" -\x7d\x7d\x7b\x7b- \x60\x7d\x7d\n\x60.B \x7d\x7d"
    let tokens : List Token := [⟨.text "a", ⟨1, 1⟩, false⟩, ⟨.leftDelim, ⟨2, 1⟩, false⟩,
      ⟨.var "$x", ⟨2, 3⟩, false⟩, ⟨.declare, ⟨2, 5⟩, false⟩, ⟨.field "A", ⟨2, 7⟩, false⟩,
      ⟨.pipe, ⟨2, 9⟩, false⟩, ⟨.identifier "f", ⟨2, 10⟩, false⟩, ⟨.number "-3", ⟨2, 12⟩, true⟩,
      ⟨.number "'\x7d\x7d'", ⟨2, 15⟩, true⟩, ⟨.string "\x7d\x7dA", ⟨3, 1⟩, true⟩,
      ⟨.rightDelim, ⟨3, 12⟩, true⟩, ⟨.leftDelim, ⟨3, 15⟩, false⟩,
      ⟨.string "\x7d\x7d\n", ⟨3, 19⟩, true⟩, ⟨.field "B", ⟨4, 2⟩, false⟩,
      ⟨.rightDelim, ⟨4, 5⟩, true⟩, ⟨.eof, ⟨4, 7⟩, false⟩]
    ∃ scan, ofSource source = .ok scan ∧ scan.tokens = tokens ∧
      source.length < UInt32.size - 1 ∧
      ∃ layout : Layout source.toList, (∀ other : Layout source.toList, other = layout) ∧
        IsReading [] none layout.passages layout.last scan.tokens ∧
        (scan.tokens.Pairwise fun t u => t.pos.Before u.pos) ∧
        ∀ t ∈ scan.tokens, t.pos.line < UInt32.size ∧ t.pos.column < UInt32.size := by
  intro source tokens
  obtain ⟨scan, hscan, hany⟩ := exists_ok_of_any (x := ofSource source)
    (p := fun scan => scan.tokens == tokens) (by decide +kernel)
  have hlength : source.length < UInt32.size - 1 := by decide +kernel
  exact ⟨scan, hscan, beq_iff_eq.mp hany, hlength, isReading_ofSource hlength hscan⟩

end Scan

end Fieldwise
