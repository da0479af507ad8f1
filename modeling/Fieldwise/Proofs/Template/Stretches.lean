import Fieldwise.Proofs.Template.Braces
import Fieldwise.Proofs.Template.Places
import Fieldwise.Proofs.Template.Textless
import Fieldwise.Proofs.Text.Space

/-!
# Text survives

A source falls into blocks, which are actions and comments, and the stretches of text around them.
This says nothing of how the source is read: a stretch ends before its first left delimiter, and
where a block ends is settled by its characters. The text that is read is what the stretches hold,
without the space that trim markers take away.

* `Scan.Layout` : a source as stretches and blocks; `Scan.Layout.unique` : there is one such layout
  at most.
* `Scan.Stretch.kept` : what is left of a stretch, given the blocks on both its sides.
* `Scan.text_ofSource` : the tokens of text are the stretches of the source of which something is
  left, in order.
-/

set_option autoImplicit false

namespace Fieldwise

/-- The characters in front of what is left, told by the places of both. -/
theorem StandsAt.eq_afterAll {source front rest : List Char} {p q : Pos}
    (h : StandsAt source p (front ++ rest)) (hrest : StandsAt source q rest) :
    q = p.afterAll front := by
  obtain ⟨before, hsource, rfl⟩ := h
  obtain ⟨before', rfl, rfl⟩ := hrest
  rw [← List.append_assoc] at hsource
  rw [← List.append_cancel_right hsource, Pos.afterAll_append]

namespace Scan

/-! ## Stretches and blocks -/

/-- The left delimiter. -/
def delimiter : List Char :=
  ['\x7b', '\x7b']

/-- Text up to its first left delimiter, and the block that this opens. -/
structure Passage where
  text : List Char
  block : List Char
  upTo : UpTo delimiter text
  isBlock : IsBlock block

/-- The characters of text and block. -/
def Passage.chars (p : Passage) : List Char :=
  p.text ++ p.block

/-- A source as passages and the text behind its last block, in which no left delimiter stands. -/
structure Layout (source : List Char) where
  passages : List Passage
  last : List Char
  covers : passages.flatMap Passage.chars ++ last = source
  closed : ¬ delimiter <:+: last

/-- A stretch of text, the place where it starts, and the blocks just before and just after it. -/
structure Stretch where
  start : Pos
  before : Option (List Char)
  text : List Char
  after : Option (List Char)

namespace Stretch

/-- What is left of a stretch: all but the space at its beginning if the block before it ends with
space and a right delimiter with a trim marker, and all but the space at its end if the block after
it begins with a left delimiter with a trim marker and space. -/
def kept (s : Stretch) : List Char :=
  let text := if s.before.any endsTrimming then s.text.dropWhile isSpace else s.text
  if s.after.any opensTrimming then text.rdropWhile isSpace else text

/-- The token of a stretch, unless nothing is left of it. -/
def tokens (s : Stretch) : List Token :=
  if s.kept = [] then [] else [⟨.text (String.ofList s.kept), s.start, false⟩]

end Stretch

/-- The stretches of text around the blocks of `passages`, with `last` behind the last of them; the
first one starts at `pos`, behind the block `before`. -/
def stretchesFrom (pos : Pos) (before : Option (List Char)) (passages : List Passage)
    (last : List Char) : List Stretch :=
  match passages with
  | [] => [⟨pos, before, last, none⟩]
  | p :: rest =>
    ⟨pos, before, p.text, some p.block⟩ ::
      stretchesFrom (pos.afterAll p.chars) (some p.block) rest last

/-- The stretches of text outside blocks, in order. -/
def Layout.stretches {source : List Char} (l : Layout source) : List Stretch :=
  stretchesFrom .start none l.passages l.last

/-! ## A source has one layout -/

theorem Passage.chars_eq (p : Passage) :
    ∃ rest, p.chars = p.text ++ (delimiter ++ rest) ∧ p.block = delimiter ++ rest := by
  obtain ⟨rest, hrest⟩ := p.isBlock.exists_cons
  exact ⟨rest, by rw [chars, hrest]; rfl, hrest⟩

theorem Passage.delimiter_infix (p : Passage) (cs : List Char) : delimiter <:+: p.chars ++ cs := by
  obtain ⟨rest, hchars, -⟩ := p.chars_eq
  rw [hchars]
  exact ⟨p.text, rest ++ cs, by simp⟩

/-- What begins with a passage begins with one passage only. -/
theorem Passage.append_inj {p q : Passage} {x y : List Char} (h : p.chars ++ x = q.chars ++ y) :
    p = q ∧ x = y := by
  obtain ⟨rest, hp, hpblock⟩ := p.chars_eq
  obtain ⟨rest', hq, hqblock⟩ := q.chars_eq
  obtain ⟨text, block, hupTo, hblock⟩ := p
  obtain ⟨text', block', hupTo', hblock'⟩ := q
  rw [hp, hq, List.append_assoc, List.append_assoc, List.append_assoc, List.append_assoc] at h
  obtain ⟨rfl, hrest⟩ := UpTo.inj (by decide) hupTo hupTo' h
  have hblocks : block ++ x = block' ++ y := by
    rw [show block = delimiter ++ rest from hpblock, show block' = delimiter ++ rest' from hqblock,
      List.append_assoc, List.append_assoc, hrest]
  obtain ⟨rfl, rfl⟩ := IsBlock.prefixFree hblock hblock' hblocks
  exact ⟨rfl, rfl⟩

theorem passages_inj {ps qs : List Passage} {x y : List Char} (hx : ¬ delimiter <:+: x)
    (hy : ¬ delimiter <:+: y)
    (h : ps.flatMap Passage.chars ++ x = qs.flatMap Passage.chars ++ y) : ps = qs ∧ x = y := by
  induction ps generalizing qs with
  | nil =>
    cases qs with
    | nil => exact ⟨rfl, h⟩
    | cons q qs =>
      refine absurd ?_ hx
      rw [List.flatMap_nil, List.nil_append, List.flatMap_cons, List.append_assoc] at h
      rw [h]
      exact q.delimiter_infix _
  | cons p ps ih =>
    cases qs with
    | nil =>
      refine absurd ?_ hy
      rw [List.flatMap_nil, List.nil_append, List.flatMap_cons, List.append_assoc] at h
      rw [← h]
      exact p.delimiter_infix _
    | cons q qs =>
      rw [List.flatMap_cons, List.flatMap_cons, List.append_assoc, List.append_assoc] at h
      obtain ⟨rfl, hrest⟩ := Passage.append_inj h
      obtain ⟨rfl, rfl⟩ := ih hrest
      exact ⟨rfl, rfl⟩

/-- **Stretches and blocks of a source are settled by its characters.** -/
theorem Layout.unique {source : List Char} (l m : Layout source) : l = m := by
  obtain ⟨passages, last, hcovers, hclosed⟩ := l
  obtain ⟨passages', last', hcovers', hclosed'⟩ := m
  obtain ⟨rfl, rfl⟩ := passages_inj hclosed hclosed' (hcovers.trans hcovers'.symm)
  rfl

/-! ## What is read of a source -/

variable {source cs : List Char} {pos : Pos} {trims : Bool} {before : Option (List Char)}
  {scan : Scan}

/-- Text without braces behind it holds no left delimiter. -/
theorem not_infix_of_splitText (h : (splitText cs).2 = []) : ¬ delimiter <:+: cs := by
  induction cs using splitText.induct with
  | case1 rest => cases h
  | case2 => decide
  | case3 c rest hmark ih =>
    rw [splitText_cons (not_opens hmark)] at h
    rw [List.infix_cons_iff]
    rintro (⟨more, hmore⟩ | hoccurs)
    · obtain ⟨rfl, htail⟩ := List.cons.inj hmore
      exact hmark more rfl htail.symm
    · exact ih h hoccurs

/-- Text with braces behind it goes up to the first left delimiter. -/
theorem exists_upTo_of_splitText (h : (splitText cs).2 ≠ []) :
    UpTo delimiter (splitText cs).1 ∧ ∃ rest, (splitText cs).2 = delimiter ++ rest := by
  induction cs using splitText.induct with
  | case1 rest => exact ⟨(by decide : UpTo delimiter []), rest, rfl⟩
  | case2 => exact absurd rfl h
  | case3 c rest hmark ih =>
    rw [splitText_cons (not_opens hmark)] at h ⊢
    obtain ⟨hupTo, more, hmore⟩ := ih h
    refine ⟨hupTo.cons (x := more) ?_, more, hmore⟩
    rw [← hmore, splitText_append]
    rintro ⟨tail, heq⟩
    obtain ⟨rfl, htail⟩ := List.cons.inj heq
    exact hmark tail rfl htail.symm

theorem Stretch.tokens_eq (start : Pos) (before : Option (List Char)) (text : List Char)
    (after : Option (List Char)) :
    Stretch.tokens ⟨start, before, text, after⟩ =
      textTokens start (trimText (before.any endsTrimming) (after.any opensTrimming) text) := by
  have hkept : Stretch.kept ⟨start, before, text, after⟩ =
      trimText (before.any endsTrimming) (after.any opensTrimming) text := by
    rw [trimText, Text.dropWhileEnd_eq_rdropWhile]
    rfl
  rw [tokens, hkept, textTokens, textSegment]
  cases trimText (before.any endsTrimming) (after.any opensTrimming) text <;> rfl

theorem filter_textTokens (pos : Pos) (s : List Char) :
    (textTokens pos s).filter Token.isText = textTokens pos s := by
  refine List.filter_eq_self.mpr fun t ht => ?_
  obtain ⟨text, htext⟩ := allText_textTokens pos s t ht
  rw [Token.isText, htext]

theorem filter_actionTokens {action : Option Action} (h : ∀ a ∈ action, a.WellFormed) :
    (actionTokens action).filter Token.isText = [] := by
  cases action with
  | none => rfl
  | some a =>
    have hinner := filter_tokens_action (h a rfl)
    have htokens : actionTokens (some a) = (Segment.action a).tokens := List.append_nil _
    rw [htokens, ← hinner, List.filter_filter]
    exact List.filter_eq_nil_iff.mpr fun t _ => by simp

/-- Text and the braces behind it are a passage. -/
theorem exists_passage_of_readBraces {action : Option Action} {closing : Closing}
    (hne : (splitText cs).2 ≠ [])
    (hread : readBraces (pos.afterAll (splitText cs).1) (splitText cs).2 = .ok (action, closing))
    (hstands : StandsAt source pos cs) :
    ∃ p : Passage, p.text = (splitText cs).1 ∧ (splitText cs).2 = p.block ++ closing.rest ∧
      p.chars ++ closing.rest = cs ∧ StandsAt source closing.pos closing.rest ∧
      closing.pos = pos.afterAll p.chars ∧ endsTrimming p.block = closing.trims ∧
      opensTrimming (splitText cs).2 = opensTrimming p.block := by
  obtain ⟨hupTo, more, hmore⟩ := exists_upTo_of_splitText hne
  have hopened : StandsAt source (pos.afterAll (splitText cs).1) (splitText cs).2 :=
    .afterAll (by rwa [splitText_append])
  have hclosing := ((readBraces_points hopened).of_ok hread).2
  rw [hmore] at hread
  obtain ⟨block, hblock, hisBlock, hends⟩ := exists_block_of_readBraces hread
  obtain ⟨p, htext, hp⟩ : ∃ p : Passage, p.text = (splitText cs).1 ∧ p.block = block :=
    ⟨⟨_, block, hupTo, hisBlock⟩, rfl, rfl⟩
  have hsplit : (splitText cs).2 = p.block ++ closing.rest := by
    rw [hp, ← hblock, hmore]
    rfl
  have hchars : p.chars ++ closing.rest = cs := by
    rw [Passage.chars, List.append_assoc, ← hsplit, htext, splitText_append]
  have hpos : closing.pos = pos.afterAll p.chars :=
    StandsAt.eq_afterAll (by rwa [hchars]) hclosing
  have hopens : opensTrimming (splitText cs).2 = opensTrimming p.block := by
    rw [hsplit, opensTrimming_followed p.isBlock.four_le]
  exact ⟨p, htext, hsplit, hchars, hclosing, hpos, hp ▸ hends, hopens⟩

/-- **The stretches of text around the blocks are read**, whatever block stands before them. -/
theorem exists_layout_of_readSegments (h : readSegments pos trims cs = .ok scan)
    (hstands : StandsAt source pos cs) :
    ∃ layout : Layout cs, ∀ before : Option (List Char), before.any endsTrimming = trims →
      scan.content.filter Token.isText =
        (stretchesFrom pos before layout.passages layout.last).flatMap Stretch.tokens := by
  induction h using readSegments_induction with
  | finish pos trims cs hnil _ =>
    have hcs : (splitText cs).1 = cs := by
      have happend := splitText_append cs
      rwa [hnil, List.append_nil] at happend
    refine ⟨⟨[], cs, rfl, not_infix_of_splitText hnil⟩, fun before htrims => ?_⟩
    rw [stretchesFrom, List.flatMap_singleton, Stretch.tokens_eq, htrims, hcs]
    exact filter_textTokens pos _
  | braces pos trims cs action closing scan hne hbraces hrest h ih =>
    obtain ⟨p, htext, -, hchars, hclosing, hpos, hends, hopens⟩ :=
      exists_passage_of_readBraces hne hbraces hstands
    obtain ⟨layout, hlayout⟩ := ih hclosing
    refine ⟨⟨p :: layout.passages, layout.last, ?_, layout.closed⟩, fun before htrims => ?_⟩
    · rw [List.flatMap_cons, List.append_assoc, layout.covers, hchars]
    · obtain ⟨u, hu, hcontent⟩ := readSegments_of_readBraces pos trims hne hbraces hrest
      cases h.symm.trans hu
      rw [hcontent, List.filter_append, List.filter_append, filter_textTokens,
        filter_actionTokens (wellFormed_of_readBraces hbraces), List.nil_append,
        hlayout (some p.block) hends, hpos, stretchesFrom, List.flatMap_cons,
        Stretch.tokens_eq, htrims, htext, hopens]
      rfl

/-- **Text survives.** A source that is read has one layout: stretches of text, each up to its first
left delimiter, and the actions and comments around them. The tokens of text are what is left of
these stretches, in order and in place, and each stretch loses the space at one of its ends if, and
only if, the block at this end trims it. -/
theorem text_ofSource {source : String} (h : ofSource source = .ok scan) :
    ∃ layout : Layout source.toList, (∀ other : Layout source.toList, other = layout) ∧
      scan.tokens.filter Token.isText = layout.stretches.flatMap Stretch.tokens := by
  obtain ⟨layout, hlayout⟩ := exists_layout_of_readSegments h (.start source.toList)
  refine ⟨layout, fun other => other.unique layout, ?_⟩
  rw [tokens_eq_content, List.filter_append, hlayout none rfl]
  exact List.append_nil _

/-- Trim markers inside a comment, a string and a raw string mean nothing, nor does the sign of a
number. Of the five stretches two are nothing but space, and leave no token. -/
theorem text_ofSource_markers :
    let source := "a \x7b\x7b- /* -\x7d\x7d */ -\x7d\x7d\n\x7b\x7b-3\x7d\x7d b " ++
      "\x7b\x7b\" -\x7d\x7d\" -\x7d\x7d\t\x7b\x7b- \x60 -\x7d\x7d\x60\x7d\x7d c"
    ∃ scan, ofSource source = .ok scan ∧
      ∃ layout : Layout source.toList, (∀ other : Layout source.toList, other = layout) ∧
        scan.tokens.filter Token.isText = layout.stretches.flatMap Stretch.tokens ∧
        layout.stretches.flatMap Stretch.tokens =
          [⟨.text "a", ⟨1, 1⟩, false⟩, ⟨.text " b ", ⟨2, 7⟩, false⟩,
            ⟨.text " c", ⟨2, 35⟩, false⟩] := by
  intro source
  obtain ⟨scan, hscan, hany⟩ := exists_ok_of_any (x := ofSource source)
    (p := fun scan => scan.tokens.filter Token.isText ==
      [⟨.text "a", ⟨1, 1⟩, false⟩, ⟨.text " b ", ⟨2, 7⟩, false⟩, ⟨.text " c", ⟨2, 35⟩, false⟩])
    (by decide +kernel)
  obtain ⟨layout, hunique, htokens⟩ := text_ofSource hscan
  exact ⟨scan, hscan, layout, hunique, htokens, htokens ▸ beq_iff_eq.mp hany⟩

end Scan

end Fieldwise
