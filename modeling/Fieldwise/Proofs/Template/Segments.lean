import Fieldwise.Template.Segment

/-!
# Tokens fall into segments in one way

* `TokenKind.isInner` : the kinds of token that stand inside an action.
* `Scan.wellFormed_of_ofSource` : inside the actions of a source stand such tokens only, and each
  action ends with a right delimiter.
* `Scan.isLexeme_of_ofSource` : each such token is what some characters are read as.
* `Scan.Spells` : segments and the tokens that they are written as, up to the end of the source.
  The first token tells which segment comes first (`Spells.of_text`, `Spells.of_action`), and so
  the tokens tell all of them (`Spells.unique`).
-/

set_option autoImplicit false

namespace Fieldwise

/-- A token that stands inside an action: no text, no delimiter, not the end of the source. -/
def TokenKind.isInner : TokenKind → Bool
  | text _ | leftDelim | rightDelim | eof => false
  | _ => true

/-- A kind of token that some characters are read as. -/
def TokenKind.IsLexeme (kind : TokenKind) : Prop :=
  ∃ c cs l, Lexeme.scan c cs = .ok l ∧ l.kind = kind

/-! ## What lexemes stand for -/

namespace Lexeme

theorem isInner_of_mark {c : Char} {kind : TokenKind} (h : Start.of c = .mark kind) :
    kind.isInner = true := by
  revert h
  fun_cases Start.of c <;> intro h <;> cases h <;> rfl

theorem isInner_wordKind (word : String) : (wordKind word).isInner = true := by
  unfold wordKind
  repeat' split
  all_goals rfl

theorem isInner_scanNumber {cs : List Char} {l : Lexeme} (h : scanNumber cs = .ok l) :
    l.kind.isInner = true := by
  simp only [scanNumber] at h
  split at h
  · cases h; rfl
  · cases h

theorem isInner_scanDot {c : Char} {cs : List Char} {l : Lexeme} (h : scanDot c cs = .ok l) :
    l.kind.isInner = true := by
  unfold scanDot at h
  split at h
  · exact isInner_scanNumber h
  · split at h
    · cases h; rfl
    · cases h; rfl

/-- A lexeme is no delimiter and no text. -/
theorem isInner_scan {c : Char} {cs : List Char} {l : Lexeme} (h : scan c cs = .ok l) :
    l.kind.isInner = true := by
  unfold scan at h
  split at h
  · next hmark => cases h; exact isInner_of_mark hmark
  · unfold scanDeclare at h
    split at h
    · cases h; rfl
    · cases h
  · split at h
    · cases h
    · cases h; rfl
  · split at h
    · cases h
    · cases h; rfl
  · split at h
    · cases h
    · cases h; rfl
  · cases h; rfl
  · exact isInner_scanDot h
  · exact isInner_scanNumber h
  · cases h; exact isInner_wordKind _
  · cases h

end Lexeme

/-! ## Segments of a source -/

/-- Inner tokens, and the right delimiter behind them. -/
structure Action.WellFormed (a : Action) : Prop where
  isInner : ∀ t ∈ a.tokens, t.kind.isInner = true
  kind_close : a.close.kind = .rightDelim

/-- A text, or a well-formed action. -/
def Segment.WellFormed : Segment → Prop
  | .text _ _ => True
  | .action a => a.WellFormed

namespace Scan

/-! ### Induction over what is read -/

theorem readAction_nil (opened pos : Pos) (space : Bool) :
    readAction opened pos space [] = .error ⟨opened, .unclosedAction⟩ := by
  rw [readAction]

theorem readAction_cons (opened pos : Pos) (space : Bool) (c : Char) (tail : List Char) :
    readAction opened pos space (c :: tail) =
      if isSpace c then readAction opened (pos.after c) true tail
      else if space && closesTrimming (c :: tail) then
        .ok ⟨[], ⟨.rightDelim, pos, true⟩,
          ⟨true, pos.afterAll ((c :: tail).take 3), (c :: tail).drop 3⟩⟩
      else if closes (c :: tail) then
        .ok ⟨[], ⟨.rightDelim, pos, space⟩,
          ⟨false, pos.afterAll ((c :: tail).take 2), (c :: tail).drop 2⟩⟩
      else
        match Lexeme.scan c tail with
        | .error fault => .error ⟨pos, fault⟩
        | .ok lexeme =>
          match readAction opened (pos.afterAll lexeme.chars) false lexeme.rest with
          | .error e => .error e
          | .ok body => .ok { body with tokens := ⟨lexeme.kind, pos, space⟩ :: body.tokens } := by
  rw [readAction]
  repeat' split
  all_goals simp_all

/-- Induction over the reading of an action, one case for each way in which it goes on. -/
theorem readAction_induction {opened : Pos}
    {motive : (pos : Pos) → (space : Bool) → (cs : List Char) → (body : Body) →
      readAction opened pos space cs = .ok body → Prop}
    (space : ∀ (pos : Pos) (space : Bool) (c : Char) (tail : List Char) (body : Body)
      (_ : isSpace c = true) (hrest : readAction opened (pos.after c) true tail = .ok body)
      (h : readAction opened pos space (c :: tail) = .ok body),
      motive _ _ _ _ hrest → motive _ _ _ _ h)
    (trimming : ∀ (pos : Pos) (c : Char) (tail : List Char) (_ : isSpace c = false)
      (_ : closesTrimming (c :: tail) = true)
      (h : readAction opened pos true (c :: tail) = .ok ⟨[], ⟨.rightDelim, pos, true⟩,
        ⟨true, pos.afterAll ((c :: tail).take 3), (c :: tail).drop 3⟩⟩), motive _ _ _ _ h)
    (closing : ∀ (pos : Pos) (space : Bool) (c : Char) (tail : List Char) (_ : isSpace c = false)
      (_ : (space && closesTrimming (c :: tail)) = false) (_ : closes (c :: tail) = true)
      (h : readAction opened pos space (c :: tail) = .ok ⟨[], ⟨.rightDelim, pos, space⟩,
        ⟨false, pos.afterAll ((c :: tail).take 2), (c :: tail).drop 2⟩⟩), motive _ _ _ _ h)
    (lexeme : ∀ (pos : Pos) (space : Bool) (c : Char) (tail : List Char) (lexeme : Lexeme)
      (body : Body) (_ : isSpace c = false) (_ : (space && closesTrimming (c :: tail)) = false)
      (_ : closes (c :: tail) = false) (_ : Lexeme.scan c tail = .ok lexeme)
      (hrest : readAction opened (pos.afterAll lexeme.chars) false lexeme.rest = .ok body)
      (h : readAction opened pos space (c :: tail) =
        .ok { body with tokens := ⟨lexeme.kind, pos, space⟩ :: body.tokens }),
      motive _ _ _ _ hrest → motive _ _ _ _ h)
    {pos : Pos} {sp : Bool} {cs : List Char} {body : Body}
    (h : readAction opened pos sp cs = .ok body) : motive pos sp cs body h := by
  induction pos, sp, cs using readAction.induct opened generalizing body with
  | case1 => rw [readAction_nil] at h; cases h
  | case2 pos sp c tail hc ih =>
    have hrest := h
    rw [readAction_cons, if_pos hc] at hrest
    exact space pos sp c tail body hc hrest h (ih hrest)
  | case3 pos sp c tail hc htrim =>
    have hbody := h
    rw [readAction_cons, if_neg hc, if_pos htrim] at hbody
    cases hbody
    obtain ⟨rfl, htrim⟩ := (Bool.and_eq_true_iff ..).mp htrim
    exact trimming pos c tail (by simpa using hc) htrim h
  | case4 pos sp c tail hc htrim hclose =>
    have hbody := h
    rw [readAction_cons, if_neg hc, if_neg htrim, if_pos hclose] at hbody
    cases hbody
    exact closing pos sp c tail (by simpa using hc) (by simpa using htrim) hclose h
  | case5 pos sp c tail hc fault hs htrim hclose =>
    rw [readAction_cons, if_neg hc, if_neg htrim, if_neg hclose, hs] at h
    cases h
  | case6 pos sp c tail hc l hs _ e hr htrim hclose =>
    rw [readAction_cons, if_neg hc, if_neg htrim, if_neg hclose, hs] at h
    simp only [hr] at h
    cases h
  | case7 pos sp c tail hc l hs _ inner hr htrim hclose ih =>
    have hbody := h
    rw [readAction_cons, if_neg hc, if_neg htrim, if_neg hclose, hs] at hbody
    simp only [hr] at hbody
    cases hbody
    exact lexeme pos sp c tail l inner (by simpa using hc) (by simpa using htrim)
      (by simpa using hclose) hs hr h (ih hr)

theorem readSegments_of_nil {pos : Pos} {trims : Bool} {cs : List Char}
    (h : (splitText cs).2 = []) :
    readSegments pos trims cs = .ok ⟨textSegment pos (trimText trims false (splitText cs).1),
      pos.afterAll (splitText cs).1⟩ := by
  rw [readSegments]
  split
  · rfl
  · next hrest => cases h.symm.trans hrest

theorem readSegments_of_ne_nil {pos : Pos} {trims : Bool} {cs : List Char}
    (h : (splitText cs).2 ≠ []) :
    readSegments pos trims cs =
      match readBraces (pos.afterAll (splitText cs).1) (splitText cs).2 with
      | .error e => .error e
      | .ok (action, closing) =>
        match readSegments closing.pos closing.trims closing.rest with
        | .error e => .error e
        | .ok scan =>
          .ok { scan with
            segments :=
              textSegment pos (trimText trims (opensTrimming (splitText cs).2) (splitText cs).1)
                ++ (action.map Segment.action).toList ++ scan.segments } := by
  rw [readSegments]
  split
  · next hrest => cases h hrest
  · next hrest =>
    dsimp only
    split
    · next hb => rw [hrest, hb]
    · next hb =>
      have hread : readBraces (pos.afterAll (splitText cs).1) (splitText cs).2 = _ := hrest ▸ hb
      exact hread ▸ hrest ▸ rfl

/-- Induction over the reading of a source, from one pair of braces to the next. -/
theorem readSegments_induction
    {motive : (pos : Pos) → (trims : Bool) → (cs : List Char) → (scan : Scan) →
      readSegments pos trims cs = .ok scan → Prop}
    (finish : ∀ (pos : Pos) (trims : Bool) (cs : List Char) (_ : (splitText cs).2 = [])
      (h : readSegments pos trims cs =
        .ok ⟨textSegment pos (trimText trims false (splitText cs).1),
          pos.afterAll (splitText cs).1⟩), motive _ _ _ _ h)
    (braces : ∀ (pos : Pos) (trims : Bool) (cs : List Char) (action : Option Action)
      (closing : Closing) (scan : Scan) (_ : (splitText cs).2 ≠ [])
      (_ : readBraces (pos.afterAll (splitText cs).1) (splitText cs).2 = .ok (action, closing))
      (hrest : readSegments closing.pos closing.trims closing.rest = .ok scan)
      (h : readSegments pos trims cs = .ok { scan with
        segments := textSegment pos (trimText trims (opensTrimming (splitText cs).2)
          (splitText cs).1) ++ (action.map Segment.action).toList ++ scan.segments }),
      motive _ _ _ _ hrest → motive _ _ _ _ h)
    {pos : Pos} {trims : Bool} {cs : List Char} {scan : Scan}
    (h : readSegments pos trims cs = .ok scan) : motive pos trims cs scan h := by
  induction hlen : cs.length using Nat.strongRecOn generalizing pos trims cs scan with
  | ind n ih =>
    subst hlen
    have hscan := h
    by_cases hrest : (splitText cs).2 = []
    · rw [readSegments_of_nil hrest] at hscan
      cases hscan
      exact finish pos trims cs hrest h
    · rw [readSegments_of_ne_nil hrest] at hscan
      split at hscan
      · cases hscan
      · next action closing hbraces =>
        split at hscan
        · cases hscan
        · next scan hinner =>
          cases hscan
          have hlt := length_readBraces_lt hrest hbraces
          have hle := congrArg List.length (splitText_append cs)
          rw [List.length_append] at hle
          exact braces pos trims cs action closing scan hrest hbraces hinner h
            (ih _ (by omega) hinner rfl)

/-! ### Well-formed segments -/

theorem wellFormed_of_readAction {opened pos start : Pos} {space : Bool} {cs : List Char}
    {body : Body} (h : readAction opened pos space cs = .ok body) :
    (⟨start, body.tokens, body.close⟩ : Action).WellFormed := by
  induction h using readAction_induction with
  | space _ _ _ _ _ _ _ _ ih => exact ih
  | trimming => exact ⟨nofun, rfl⟩
  | closing => exact ⟨nofun, rfl⟩
  | lexeme _ _ _ _ _ _ _ _ _ hs _ _ ih =>
    exact ⟨List.forall_mem_cons.mpr ⟨Lexeme.isInner_scan hs, ih.isInner⟩, ih.kind_close⟩

theorem wellFormed_of_readBraces {opened : Pos} {cs : List Char} {action : Option Action}
    {closing : Closing} (h : readBraces opened cs = .ok (action, closing)) :
    ∀ a ∈ action, a.WellFormed := by
  intro a ha
  simp only [readBraces] at h
  generalize (if opensTrimming cs then cs.drop 3 else cs.drop 2) = inside at h
  split at h
  · split at h
    · cases h
    · cases h; cases ha
  · split at h
    · cases h
    · next hbody =>
      cases h
      cases ha
      exact wellFormed_of_readAction hbody

theorem wellFormed_of_readSegments {pos : Pos} {trims : Bool} {cs : List Char} {scan : Scan}
    (h : readSegments pos trims cs = .ok scan) : ∀ s ∈ scan.segments, s.WellFormed := by
  have htext : ∀ (pos : Pos) (cs : List Char), ∀ s ∈ textSegment pos cs, s.WellFormed := by
    intro pos cs s hs
    unfold textSegment at hs
    split at hs
    · cases hs
    · rw [List.mem_singleton.mp hs]
      trivial
  induction h using readSegments_induction with
  | finish pos trims cs => exact htext pos _
  | braces pos trims cs action closing scan _ hbraces _ _ ih =>
    intro s hs
    simp only [List.mem_append, Option.mem_toList, Option.map_eq_some_iff] at hs
    obtain (hs | ⟨a, ha, rfl⟩) | hs := hs
    · exact htext _ _ s hs
    · exact wellFormed_of_readBraces hbraces a ha
    · exact ih s hs

/-- **Inside the actions of a source stand inner tokens only**, and each action ends with a right
delimiter. -/
theorem wellFormed_of_ofSource {source : String} {scan : Scan}
    (h : Scan.ofSource source = .ok scan) : ∀ s ∈ scan.segments, s.WellFormed :=
  wellFormed_of_readSegments h

/-! ### Inner tokens are lexemes -/

theorem isLexeme_of_readAction {opened pos : Pos} {space : Bool} {cs : List Char} {body : Body}
    (h : readAction opened pos space cs = .ok body) : ∀ t ∈ body.tokens, t.kind.IsLexeme := by
  induction h using readAction_induction with
  | space _ _ _ _ _ _ _ _ ih => exact ih
  | trimming => exact nofun
  | closing => exact nofun
  | lexeme _ _ _ _ _ _ _ _ _ hs _ _ ih => exact List.forall_mem_cons.mpr ⟨⟨_, _, _, hs, rfl⟩, ih⟩

theorem isLexeme_of_readBraces {opened : Pos} {cs : List Char} {action : Option Action}
    {closing : Closing} (h : readBraces opened cs = .ok (action, closing)) :
    ∀ a ∈ action, ∀ t ∈ a.tokens, t.kind.IsLexeme := by
  intro a ha
  simp only [readBraces] at h
  generalize (if opensTrimming cs then cs.drop 3 else cs.drop 2) = inside at h
  split at h
  · split at h
    · cases h
    · cases h; cases ha
  · split at h
    · cases h
    · next hbody =>
      cases h
      cases ha
      exact isLexeme_of_readAction hbody

theorem isLexeme_of_readSegments {pos : Pos} {trims : Bool} {cs : List Char} {scan : Scan}
    (h : readSegments pos trims cs = .ok scan) :
    ∀ a, Segment.action a ∈ scan.segments → ∀ t ∈ a.tokens, t.kind.IsLexeme := by
  have htext (pos : Pos) (cs : List Char) (a : Action) : Segment.action a ∉ textSegment pos cs := by
    unfold textSegment
    split
    · exact List.not_mem_nil
    · exact fun h => nomatch List.mem_singleton.mp h
  induction h using readSegments_induction with
  | finish pos trims cs => exact fun a ha => absurd ha (htext _ _ a)
  | braces pos trims cs action closing scan _ hbraces _ _ ih =>
    intro a ha
    simp only [List.mem_append, Option.mem_toList, Option.map_eq_some_iff] at ha
    obtain (ha | ⟨b, hb, heq⟩) | ha := ha
    · exact absurd ha (htext _ _ a)
    · cases heq
      exact isLexeme_of_readBraces hbraces a hb
    · exact ih a ha

/-- **Each inner token of a source is what some characters are read as.** -/
theorem isLexeme_of_ofSource {source : String} {scan : Scan} (h : ofSource source = .ok scan) :
    ∀ t ∈ scan.tokens, t.kind.isInner = true → t.kind.IsLexeme := by
  intro t ht hinner
  rcases List.mem_append.mp ht with ht | ht
  · obtain ⟨s, hs, ht⟩ := List.mem_flatMap.mp ht
    cases s with
    | text pos text =>
      rw [List.mem_singleton.mp ht] at hinner
      cases hinner
    | action a =>
      rcases List.mem_append.mp ht with ht | ht
      · rcases List.mem_cons.mp ht with rfl | ht
        · cases hinner
        · exact isLexeme_of_readSegments h a hs t ht
      · rw [List.mem_singleton.mp ht, (wellFormed_of_ofSource h _ hs : a.WellFormed).kind_close]
          at hinner
        cases hinner
  · rw [List.mem_singleton.mp ht] at hinner
    cases hinner

/-! ### Tokens of segments -/

/-- Inner tokens end where the first other one stands. -/
theorem append_cons_inj {xs ys us vs : List Token} {x y : Token}
    (h : xs ++ x :: us = ys ++ y :: vs) (hxs : ∀ t ∈ xs, t.kind.isInner = true)
    (hx : x.kind.isInner = false) (hys : ∀ t ∈ ys, t.kind.isInner = true)
    (hy : y.kind.isInner = false) : xs = ys ∧ x = y ∧ us = vs := by
  induction xs generalizing ys with
  | nil =>
    cases ys with
    | nil => exact ⟨rfl, List.cons.inj h⟩
    | cons t ys =>
      have := hys t List.mem_cons_self
      simp_all
  | cons s xs ih =>
    cases ys with
    | nil =>
      have := hxs s List.mem_cons_self
      simp_all
    | cons t ys =>
      obtain ⟨rfl, htail⟩ := List.cons.inj h
      obtain ⟨rfl, hrest⟩ := ih htail (fun t ht => hxs t (List.mem_cons_of_mem _ ht))
        (fun t ht => hys t (List.mem_cons_of_mem _ ht))
      exact ⟨rfl, hrest⟩

/-- Well-formed segments, and the tokens that they and the end of the source at `finish` are
written as. -/
structure Spells (finish : Pos) (segments : List Segment) (ts : List Token) : Prop where
  wellFormed : ∀ s ∈ segments, s.WellFormed
  tokens_eq : (⟨segments, finish⟩ : Scan).tokens = ts

theorem tokens_cons (finish : Pos) (s : Segment) (rest : List Segment) :
    (⟨s :: rest, finish⟩ : Scan).tokens = s.tokens ++ (⟨rest, finish⟩ : Scan).tokens := by
  simp only [Scan.tokens, List.flatMap_cons, List.append_assoc]

namespace Spells

variable {finish : Pos} {segments : List Segment} {ts rest : List Token}

theorem cons {s : Segment} (h : Spells finish (s :: segments) ts) :
    ∃ rest, ts = s.tokens ++ rest ∧ Spells finish segments rest :=
  ⟨_, by rw [← tokens_cons, h.tokens_eq], fun s hs => h.wellFormed s (List.mem_cons_of_mem _ hs),
    rfl⟩

theorem wellFormed_head {s : Segment} (h : Spells finish (s :: segments) ts) : s.WellFormed :=
  h.wellFormed s List.mem_cons_self

/-- A source whose tokens start with a text starts with that text. -/
theorem of_text {t : Token} {s : String} (h : Spells finish segments (t :: rest))
    (ht : t.kind = .text s) :
    ∃ segments', segments = .text t.pos s :: segments' ∧ Spells finish segments' rest := by
  cases segments with
  | nil =>
    cases h.tokens_eq
    cases ht
  | cons segment segments' =>
    obtain ⟨rest', hts, hrest⟩ := h.cons
    cases segment with
    | text pos s' =>
      cases hts
      cases ht
      exact ⟨segments', rfl, hrest⟩
    | action a =>
      cases hts
      cases ht

/-- A source whose tokens start with a left delimiter starts with an action. It holds the inner
tokens up to the first right delimiter. -/
theorem of_action {opening closing : Token} {inside : List Token}
    (h : Spells finish segments (opening :: (inside ++ closing :: rest)))
    (ho : opening.kind = .leftDelim) (hi : ∀ t ∈ inside, t.kind.isInner = true)
    (hc : closing.kind = .rightDelim) :
    ∃ segments', segments = .action ⟨opening.pos, inside, closing⟩ :: segments' ∧
      Spells finish segments' rest := by
  cases segments with
  | nil =>
    have heof := (List.cons.inj h.tokens_eq).1
    rw [← heof] at ho
    cases ho
  | cons segment segments' =>
    obtain ⟨rest', hts, hrest⟩ := h.cons
    cases segment with
    | text pos s' =>
      have htext := (List.cons.inj hts).1
      rw [htext] at ho
      cases ho
    | action a =>
      have ha : a.WellFormed := h.wellFormed_head
      obtain ⟨opened, tokens, close⟩ := a
      obtain ⟨rfl, htail⟩ := List.cons.inj (hts.trans (List.append_assoc ..))
      obtain ⟨rfl, rfl, rfl⟩ := append_cons_inj htail hi (hc ▸ rfl) ha.isInner
        (ha.kind_close ▸ rfl)
      exact ⟨segments', rfl, hrest⟩

/-- **Tokens fall into segments in one way.** -/
theorem unique {finish' : Pos} {segments : List Segment} : ∀ {segments' : List Segment}
    {ts : List Token}, Spells finish segments ts → Spells finish' segments' ts →
    segments' = segments := by
  induction segments with
  | nil =>
    intro segments' ts h h'
    cases h.tokens_eq
    cases segments' with
    | nil => rfl
    | cons s rest =>
      -- the one token is that of the end, with which no segment starts
      obtain ⟨us, hus, -⟩ := h'.cons
      cases s <;> cases hus
  | cons s rest ih =>
    intro segments' ts h h'
    obtain ⟨us, rfl, hrest⟩ := h.cons
    cases s with
    | text pos s =>
      obtain ⟨rest', rfl, hrest'⟩ := h'.of_text rfl
      rw [ih hrest hrest']
    | action act =>
      have hact : act.WellFormed := h.wellFormed_head
      have htokens : (Segment.action act).tokens ++ us =
          ⟨.leftDelim, act.opened, false⟩ :: (act.tokens ++ act.close :: us) := by
        simp [Segment.tokens]
      rw [htokens] at h'
      obtain ⟨rest', rfl, hrest'⟩ := h'.of_action rfl hact.isInner hact.kind_close
      rw [ih hrest hrest']

end Spells

end Scan

end Fieldwise
