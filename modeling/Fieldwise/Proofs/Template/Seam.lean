import Fieldwise.Proofs.Template.Followed
import Fieldwise.Proofs.Template.Layout

/-!
# The tokens of one source behind another

Between its actions a source is text, so that a second source can be written behind a first one and
both are read as before. Two things change: the places in the second source, and the text at the
seam, where two stretches of text become one and trim markers of one source reach into the other.

* `readAction_followed`, `readBraces_followed` : an action that ends is read in the same way when
  more text follows, wherever it stands.
* `readSegments_relocate` : a source is read in the same way wherever it starts.
* `Joins` : tokens of two sources put together, up to places and to the text at the seam.
* `readSegments_append` : reading one source behind another, unless a left delimiter comes about at
  the seam.
-/

set_option autoImplicit false

namespace Fieldwise

open Grammar

namespace Scan

/-! ## Delimiters and marks -/

variable {cs ds : List Char}

theorem closes_eq (cs : List Char) : closes cs = decide (cs.take 2 = ['\x7d', '\x7d']) := by
  unfold closes
  split
  · simp
  · next h =>
    rcases cs with _ | ⟨a, _ | ⟨b, r⟩⟩
    · rfl
    · simp
    · simpa using fun ha hb => h r (by rw [ha, hb])

theorem closesTrimming_eq (cs : List Char) :
    closesTrimming cs = decide (cs.take 3 = ['-', '\x7d', '\x7d']) := by
  unfold closesTrimming
  split
  · simp
  · next h =>
    rcases cs with _ | ⟨a, _ | ⟨b, _ | ⟨c, r⟩⟩⟩
    · rfl
    · simp
    · simp
    · simpa using fun ha hb hc => h r (by rw [ha, hb, hc])

theorem opensComment_eq (cs : List Char) : opensComment cs = decide (cs.take 2 = ['/', '*']) := by
  unfold opensComment
  split
  · simp
  · next h =>
    rcases cs with _ | ⟨a, _ | ⟨b, r⟩⟩
    · rfl
    · simp
    · simpa using fun ha hb => h r (by rw [ha, hb])

theorem opensTrimming_eq (cs : List Char) :
    opensTrimming cs = (decide (cs.take 3 = ['\x7b', '\x7b', '-']) && cs[3]?.any isSpace) := by
  unfold opensTrimming
  split
  · simp
  · next h =>
    rcases cs with _ | ⟨a, _ | ⟨b, _ | ⟨c, _ | ⟨d, r⟩⟩⟩⟩
    · rfl
    · simp
    · simp
    · simp
    · have hmark : ¬ (a = '\x7b' ∧ b = '\x7b' ∧ c = '-') :=
        fun ⟨ha, hb, hc⟩ => h d r (by rw [ha, hb, hc])
      simp [hmark]

theorem length_of_take_eq {n : Nat} {mark : List Char} (h : cs.take n = mark) :
    mark.length ≤ cs.length := by
  rw [← h, List.length_take]
  omega

theorem closes_followed (h : 2 ≤ cs.length) (ds : List Char) : closes (cs ++ ds) = closes cs := by
  rw [closes_eq, closes_eq, List.take_append_of_le_length h]

theorem closesTrimming_followed (h : 3 ≤ cs.length) (ds : List Char) :
    closesTrimming (cs ++ ds) = closesTrimming cs := by
  rw [closesTrimming_eq, closesTrimming_eq, List.take_append_of_le_length h]

theorem opensComment_followed (h : 2 ≤ cs.length) (ds : List Char) :
    opensComment (cs ++ ds) = opensComment cs := by
  rw [opensComment_eq, opensComment_eq, List.take_append_of_le_length h]

theorem opensTrimming_followed (h : 4 ≤ cs.length) (ds : List Char) :
    opensTrimming (cs ++ ds) = opensTrimming cs := by
  rw [opensTrimming_eq, opensTrimming_eq, List.take_append_of_le_length (by omega),
    List.getElem?_append_left (by omega)]

theorem two_le_of_closes (h : closes cs = true) : 2 ≤ cs.length := by
  rw [closes_eq, decide_eq_true_iff] at h
  exact length_of_take_eq h

theorem three_le_of_closesTrimming (h : closesTrimming cs = true) : 3 ≤ cs.length := by
  rw [closesTrimming_eq, decide_eq_true_iff] at h
  exact length_of_take_eq h

theorem two_le_of_opensComment (h : opensComment cs = true) : 2 ≤ cs.length := by
  rw [opensComment_eq, decide_eq_true_iff] at h
  exact length_of_take_eq h

/-- What starts with a right delimiter has no trim marker before it. -/
theorem closesTrimming_of_closes (h : closes cs = true) (ds : List Char) :
    closesTrimming (cs ++ ds) = false := by
  obtain ⟨a, b, r, rfl⟩ : ∃ a b r, cs = a :: b :: r := by
    rcases cs with _ | ⟨a, _ | ⟨b, r⟩⟩
    · cases h
    · rw [closes_eq] at h
      simp at h
    · exact ⟨a, b, r, rfl⟩
  rw [closes_eq] at h
  rw [closesTrimming_eq]
  simp_all

/-! ## Actions followed by more text -/

/-- The same end of an action, with `ds` behind what is left. -/
structure Closing.Followed (ds : List Char) (closing closing' : Closing) : Prop where
  trims : closing'.trims = closing.trims
  rest : closing'.rest = closing.rest ++ ds

/-- The same action, perhaps at another place, with `ds` behind what is left. -/
structure Body.Followed (ds : List Char) (body body' : Body) : Prop where
  tokens : Alike body'.tokens body.tokens
  close : body'.close.bare = body.close.bare
  closing : Closing.Followed ds body.closing body'.closing

variable {opened pos : Pos} {space trims : Bool} {body : Body} {closing : Closing}

theorem two_le_of_readAction (h : readAction opened pos space cs = .ok body) : 2 ≤ cs.length := by
  induction h using readAction_induction with
  | space _ _ _ _ _ _ _ _ ih => exact Nat.le_succ_of_le ih
  | trimming _ _ _ _ htrim => exact Nat.le_of_succ_le (three_le_of_closesTrimming htrim)
  | closing _ _ _ _ _ _ hclose => exact two_le_of_closes hclose
  | lexeme _ _ _ _ _ _ _ _ _ hs _ _ ih =>
    have hle := Lexeme.length_rest_le hs
    rw [List.length_cons]
    omega

theorem rest_suffix_of_readAction (h : readAction opened pos space cs = .ok body) :
    body.closing.rest <:+ cs := by
  induction h using readAction_induction with
  | space _ _ _ _ _ _ _ _ ih => exact ih.trans (List.suffix_cons ..)
  | trimming => exact List.drop_suffix ..
  | closing => exact List.drop_suffix ..
  | lexeme _ _ _ _ l _ _ _ _ hs _ _ ih => exact ih.trans ⟨l.chars, Lexeme.chars_append_rest hs⟩

/-- **An action is read in the same way when more text follows**, wherever it stands. -/
theorem readAction_followed (h : readAction opened pos space cs = .ok body) (opened' : Pos)
    (ds : List Char) :
    ∀ pos', ∃ body', readAction opened' pos' space (cs ++ ds) = .ok body' ∧
      Body.Followed ds body body' := by
  induction h using readAction_induction with
  | space pos space c tail body hc _ _ ih =>
    intro pos'
    obtain ⟨body', hread, hbody⟩ := ih (pos'.after c)
    refine ⟨body', ?_, hbody⟩
    rw [List.cons_append, readAction_cons, if_pos hc, hread]
  | trimming pos c tail hc htrim h =>
    intro pos'
    have hlen := three_le_of_closesTrimming htrim
    have htrim' := (closesTrimming_followed hlen ds).trans htrim
    have hdrop : (c :: tail ++ ds).drop 3 = (c :: tail).drop 3 ++ ds :=
      List.drop_append_of_le_length hlen
    rw [List.cons_append] at htrim' ⊢
    rw [readAction_cons, if_neg (by simp [hc]), if_pos (by simp [htrim'])]
    exact ⟨_, rfl, rfl, rfl, rfl, hdrop⟩
  | closing pos space c tail hc htrim hclose h =>
    intro pos'
    have hlen := two_le_of_closes hclose
    have htrim' := closesTrimming_of_closes hclose ds
    have hclose' := (closes_followed hlen ds).trans hclose
    have hdrop : (c :: tail ++ ds).drop 2 = (c :: tail).drop 2 ++ ds :=
      List.drop_append_of_le_length hlen
    rw [List.cons_append] at htrim' hclose' ⊢
    rw [readAction_cons, if_neg (by simp [hc]), if_neg (by simp [htrim']), if_pos hclose']
    exact ⟨_, rfl, rfl, rfl, rfl, hdrop⟩
  | lexeme pos space c tail l body hc htrim hclose hs hrest h ih =>
    intro pos'
    -- behind the lexeme comes at least a right delimiter
    have htwo := two_le_of_readAction hrest
    have hle := Lexeme.length_rest_le hs
    have hlen : 3 ≤ (c :: tail).length := by
      rw [List.length_cons]
      omega
    have hne : l.rest ≠ [] := List.ne_nil_of_length_pos (by omega)
    have htrim' := closesTrimming_followed hlen ds
    have hclose' := closes_followed (Nat.le_of_succ_le hlen) ds
    obtain ⟨body', hread, htokens, hbare, hclosing⟩ := ih (pos'.afterAll l.chars)
    rw [List.cons_append] at htrim' hclose' ⊢
    rw [readAction_cons, if_neg (by simp [hc]), if_neg (by rw [htrim']; simp [htrim]),
      if_neg (by rw [hclose']; simp [hclose]), Lexeme.scan_followed hs hne ds]
    simp only [hread]
    exact ⟨_, rfl, htokens.cons_cons rfl, hbare, hclosing⟩

/-! ## Comments followed by more text -/

theorem splitComment_append {inside rest : List Char} (h : splitComment cs = some (inside, rest)) :
    inside ++ rest = cs := by
  fun_induction splitComment cs generalizing inside rest with
  | case1 => cases h; rfl
  | case2 => cases h
  | case3 c tail _ ih =>
    obtain ⟨⟨inside', rest'⟩, hs, heq⟩ := Option.map_eq_some_iff.mp h
    cases heq
    rw [List.cons_append, ih hs]

theorem splitComment_followed {inside rest : List Char}
    (h : splitComment cs = some (inside, rest)) (ds : List Char) :
    splitComment (cs ++ ds) = some (inside, rest ++ ds) := by
  fun_induction splitComment cs generalizing inside rest with
  | case1 => cases h; rfl
  | case2 => cases h
  | case3 c tail hmark ih =>
    obtain ⟨⟨inside', rest'⟩, hs, heq⟩ := Option.map_eq_some_iff.mp h
    cases heq
    have hne : tail ≠ [] := by
      rintro rfl
      cases hs
    obtain ⟨c', tail, rfl⟩ := List.exists_cons_of_ne_nil hne
    rw [List.cons_append, splitComment, ih hs, Option.map_some]
    rintro rest rfl heq
    cases heq
    exact hmark _ rfl rfl

/-- What stands behind the last mark of a comment, and how it ends the comment. -/
inductive EndsComment (rest : List Char) (closing : Closing) : Prop
  | trimming (hspace : rest.takeWhile isSpace ≠ [])
      (hcloses : closesTrimming (rest.dropWhile isSpace) = true) (htrims : closing.trims = true)
      (hrest : closing.rest = (rest.dropWhile isSpace).drop 3)
  | plain (hcloses : closes (rest.dropWhile isSpace) = true) (htrims : closing.trims = false)
      (hrest : closing.rest = (rest.dropWhile isSpace).drop 2)

theorem exists_of_readComment (h : readComment opened pos cs = .ok closing) :
    ∃ inside rest, splitComment cs = some (inside, rest) ∧ EndsComment rest closing := by
  simp only [readComment] at h
  split at h
  · cases h
  next inside rest hsplit =>
  refine ⟨inside, rest, hsplit, ?_⟩
  split at h
  · next htrim =>
    cases h
    rw [Bool.and_eq_true] at htrim
    exact .trimming (by simpa using htrim.1) htrim.2 rfl rfl
  · split at h
    · next hclose =>
      cases h
      exact .plain hclose rfl rfl
    · cases h

theorem rest_suffix_of_readComment (h : readComment opened pos cs = .ok closing) :
    closing.rest <:+ cs := by
  obtain ⟨inside, rest, hsplit, hends⟩ := exists_of_readComment h
  have hsuffix : rest.dropWhile isSpace <:+ cs := by
    rw [← splitComment_append hsplit]
    exact (List.dropWhile_suffix _).trans (List.suffix_append ..)
  cases hends with
  | trimming _ _ _ hrest => exact hrest ▸ (List.drop_suffix ..).trans hsuffix
  | plain _ _ hrest => exact hrest ▸ (List.drop_suffix ..).trans hsuffix

theorem readComment_followed (h : readComment opened pos cs = .ok closing) (opened' pos' : Pos)
    (ds : List Char) :
    ∃ closing', readComment opened' pos' (cs ++ ds) = .ok closing' ∧
      Closing.Followed ds closing closing' := by
  simp only [readComment] at h ⊢
  split at h
  · cases h
  next inside rest hsplit =>
  rw [splitComment_followed hsplit ds]
  dsimp only
  split at h
  · next htrim =>
    cases h
    rw [Bool.and_eq_true] at htrim
    have hlen := three_le_of_closesTrimming htrim.2
    have hne : rest.dropWhile isSpace ≠ [] := List.ne_nil_of_length_pos (by omega)
    rw [Lexeme.takeWhile_followed hne, Lexeme.dropWhile_followed hne,
      closesTrimming_followed hlen, htrim.1, htrim.2]
    exact ⟨_, rfl, rfl, List.drop_append_of_le_length hlen⟩
  · split at h
    · next hclose =>
      cases h
      have hlen := two_le_of_closes hclose
      have hne : rest.dropWhile isSpace ≠ [] := List.ne_nil_of_length_pos (by omega)
      rw [Lexeme.takeWhile_followed hne, Lexeme.dropWhile_followed hne,
        closesTrimming_of_closes hclose, closes_followed hlen, hclose, Bool.and_false]
      exact ⟨_, rfl, rfl, List.drop_append_of_le_length hlen⟩
    · cases h

/-! ## Braces followed by more text -/

/-- What stands behind a left delimiter and its trim marker. -/
def behindDelim (cs : List Char) : List Char :=
  if opensTrimming cs then cs.drop 3 else cs.drop 2

theorem behindDelim_followed (h : 4 ≤ cs.length) (ds : List Char) :
    behindDelim (cs ++ ds) = behindDelim cs ++ ds := by
  unfold behindDelim
  rw [opensTrimming_followed h]
  split <;> exact List.drop_append_of_le_length (by omega)

/-- The tokens of an action, if there is one. -/
def actionTokens (action : Option Action) : List Token :=
  (action.map Segment.action).toList.flatMap Segment.tokens

theorem readBraces_eq (opened : Pos) (cs : List Char) :
    readBraces opened cs =
      let lead := if opensTrimming cs then cs.take 3 else cs.take 2
      let space := (behindDelim cs).takeWhile isSpace
      let pos := (opened.afterAll lead).afterAll space
      let inside := (behindDelim cs).dropWhile isSpace
      if opensComment inside then
        match readComment opened (pos.afterAll (inside.take 2)) (inside.drop 2) with
        | .error e => .error e
        | .ok closing => .ok (none, closing)
      else
        match readAction opened pos (!space.isEmpty) inside with
        | .error e => .error e
        | .ok body => .ok (some ⟨opened, body.tokens, body.close⟩, body.closing) := rfl

/-- Behind the delimiter and space stands a comment or an action. -/
theorem readBraces_cases {action : Option Action}
    (h : readBraces opened cs = .ok (action, closing)) :
    (opensComment ((behindDelim cs).dropWhile isSpace) = true ∧ action = none ∧
      ∃ pos, readComment opened pos (((behindDelim cs).dropWhile isSpace).drop 2) = .ok closing) ∨
    (opensComment ((behindDelim cs).dropWhile isSpace) = false ∧ ∃ pos body,
      readAction opened pos (!((behindDelim cs).takeWhile isSpace).isEmpty)
        ((behindDelim cs).dropWhile isSpace) = .ok body ∧
      action = some ⟨opened, body.tokens, body.close⟩ ∧ closing = body.closing) := by
  simp only [readBraces_eq] at h
  split at h
  · next hcomment =>
    split at h
    · cases h
    · next hread =>
      cases h
      exact .inl ⟨hcomment, rfl, _, hread⟩
  · next hcomment =>
    split at h
    · cases h
    · next hread =>
      cases h
      exact .inr ⟨by simpa using hcomment, _, _, hread, rfl, rfl⟩

theorem four_le_of_readBraces {action : Option Action}
    (h : readBraces opened cs = .ok (action, closing)) : 4 ≤ cs.length := by
  have htwo : 2 ≤ ((behindDelim cs).dropWhile isSpace).length := by
    rcases readBraces_cases h with ⟨hcomment, -, -⟩ | ⟨-, _, _, hread, -, -⟩
    · exact two_le_of_opensComment hcomment
    · exact two_le_of_readAction hread
  have hle := (List.dropWhile_sublist isSpace (l := behindDelim cs)).length_le
  have hbehind : (behindDelim cs).length + 2 ≤ cs.length ∨ behindDelim cs = [] := by
    unfold behindDelim
    split
    · rw [List.length_drop, List.drop_eq_nil_iff]
      omega
    · rw [List.length_drop, List.drop_eq_nil_iff]
      omega
  rcases hbehind with hbehind | hnil
  · omega
  · simp [hnil] at htwo

theorem rest_suffix_of_readBraces {action : Option Action}
    (h : readBraces opened cs = .ok (action, closing)) : closing.rest <:+ cs := by
  have hbehind : behindDelim cs <:+ cs := by
    unfold behindDelim
    split <;> exact List.drop_suffix ..
  have hinside := (List.dropWhile_suffix isSpace).trans hbehind
  rcases readBraces_cases h with ⟨-, -, _, hread⟩ | ⟨-, _, body, hread, -, rfl⟩
  · exact ((rest_suffix_of_readComment hread).trans (List.drop_suffix ..)).trans hinside
  · exact (rest_suffix_of_readAction hread).trans hinside

/-- **Braces are read in the same way when more text follows**, wherever they stand. -/
theorem readBraces_followed {action : Option Action}
    (h : readBraces opened cs = .ok (action, closing)) (opened' : Pos) (ds : List Char) :
    ∃ action' closing', readBraces opened' (cs ++ ds) = .ok (action', closing') ∧
      Alike (actionTokens action') (actionTokens action) ∧
      Closing.Followed ds closing closing' := by
  have hbehind : behindDelim (cs ++ ds) = behindDelim cs ++ ds :=
    behindDelim_followed (four_le_of_readBraces h) ds
  simp only [readBraces_eq, hbehind]
  rcases readBraces_cases h with
    ⟨hcomment, rfl, pos, hread⟩ | ⟨hcomment, pos, body, hread, rfl, rfl⟩
  · have htwo := two_le_of_opensComment hcomment
    have hne : (behindDelim cs).dropWhile isSpace ≠ [] := List.ne_nil_of_length_pos (by omega)
    rw [Lexeme.takeWhile_followed hne, Lexeme.dropWhile_followed hne,
      opensComment_followed htwo, if_pos hcomment, List.drop_append_of_le_length htwo]
    obtain ⟨closing', hread', hclosing⟩ := readComment_followed hread opened' _ ds
    rw [hread']
    exact ⟨_, _, rfl, rfl, hclosing⟩
  · have htwo := two_le_of_readAction hread
    have hne : (behindDelim cs).dropWhile isSpace ≠ [] := List.ne_nil_of_length_pos (by omega)
    rw [Lexeme.takeWhile_followed hne, Lexeme.dropWhile_followed hne,
      opensComment_followed htwo, if_neg (by simp [hcomment])]
    obtain ⟨body', hread', htokens, hclose, hclosing⟩ := readAction_followed hread opened' ds _
    rw [hread']
    have hopening : (⟨.leftDelim, opened', false⟩ : Token).bare =
        (⟨.leftDelim, opened, false⟩ : Token).bare := rfl
    refine ⟨_, _, rfl, ?_, hclosing⟩
    simpa [actionTokens, Segment.tokens] using
      (htokens.append_append ((Alike.refl []).cons_cons hclose)).cons_cons hopening

/-! ## Text -/

theorem splitText_cons {c : Char} (h : ¬ (c = '\x7b' ∧ cs.head? = some '\x7b')) :
    splitText (c :: cs) = (c :: (splitText cs).1, (splitText cs).2) := by
  rw [splitText]
  rintro rest rfl rfl
  exact h ⟨rfl, rfl⟩

theorem not_opens {c : Char} (h : ∀ rest, c = '\x7b' → cs = '\x7b' :: rest → False) :
    ¬ (c = '\x7b' ∧ cs.head? = some '\x7b') := by
  rintro ⟨rfl, hhead⟩
  obtain ⟨rest, rfl⟩ := List.head?_eq_some_iff.mp hhead
  exact h rest rfl rfl

/-- The text before a left delimiter ends there, whatever follows. -/
theorem splitText_followed (h : (splitText cs).2 ≠ []) (ds : List Char) :
    splitText (cs ++ ds) = ((splitText cs).1, (splitText cs).2 ++ ds) := by
  induction cs using splitText.induct with
  | case1 rest => rfl
  | case2 => exact absurd rfl h
  | case3 c rest hmark ih =>
    have hhead := not_opens hmark
    rw [splitText_cons hhead] at h ⊢
    have hne : rest ≠ [] := by
      rintro rfl
      exact h rfl
    rw [List.cons_append, splitText_cons (by rwa [Lexeme.head?_followed hne]), ih h]

/-- A left delimiter comes about where `cs` ends and `ds` begins. -/
def OpensAcross (cs ds : List Char) : Prop :=
  cs.getLast? = some '\x7b' ∧ ds.head? = some '\x7b'

/-- Text without a left delimiter goes on in what follows. -/
theorem splitText_across (h : (splitText cs).2 = []) (hseam : ¬ OpensAcross cs ds) :
    splitText (cs ++ ds) = (cs ++ (splitText ds).1, (splitText ds).2) := by
  induction cs using splitText.induct with
  | case1 rest => cases h
  | case2 => rfl
  | case3 c rest hmark ih =>
    have hhead := not_opens hmark
    have hjoined : ¬ (c = '\x7b' ∧ (rest ++ ds).head? = some '\x7b') := by
      rintro ⟨rfl, hjoined⟩
      cases rest with
      | nil => exact hseam ⟨rfl, hjoined⟩
      | cons c' rest => exact hhead ⟨rfl, hjoined⟩
    rw [splitText_cons hhead] at h
    rw [List.cons_append, splitText_cons hjoined, ih h fun ⟨hlast, hfirst⟩ => hseam ⟨?_, hfirst⟩]
    · rfl
    · rw [List.getLast?_cons, hlast]
      rfl

/-- Nothing but text. -/
def AllText (ts : List Token) : Prop :=
  ∀ t ∈ ts, ∃ s, t.kind = .text s

/-- The token of a text, unless the text is empty. -/
def textTokens (pos : Pos) (s : List Char) : List Token :=
  (textSegment pos s).flatMap Segment.tokens

theorem allText_textTokens (pos : Pos) (s : List Char) : AllText (textTokens pos s) := by
  unfold textTokens textSegment
  split
  · exact nofun
  · simp [AllText, Segment.tokens]

theorem textTokens_alike (pos pos' : Pos) (s : List Char) :
    Alike (textTokens pos' s) (textTokens pos s) := by
  unfold textTokens textSegment
  split <;> rfl

/-! ## Whole sources -/

/-- The tokens of the segments, without the one for the end of the source. -/
def content (s : Scan) : List Token :=
  s.segments.flatMap Segment.tokens

theorem tokens_eq_content (s : Scan) : s.tokens = s.content ++ [⟨.eof, s.finish, false⟩] := rfl

/-- A source that goes on behind its first text is that text, braces, and a source again. -/
theorem readSegments_of_readBraces (pos : Pos) (trims : Bool) {action : Option Action}
    {scan : Scan} (hne : (splitText cs).2 ≠ [])
    (hbraces : readBraces (pos.afterAll (splitText cs).1) (splitText cs).2 = .ok (action, closing))
    (hrest : readSegments closing.pos closing.trims closing.rest = .ok scan) :
    ∃ u, readSegments pos trims cs = .ok u ∧
      u.content =
        textTokens pos (trimText trims (opensTrimming (splitText cs).2) (splitText cs).1) ++
          (actionTokens action ++ scan.content) := by
  rw [readSegments_of_ne_nil hne, hbraces]
  dsimp only
  rw [hrest]
  refine ⟨_, rfl, ?_⟩
  simp only [Scan.content, textTokens, actionTokens, List.flatMap_append, List.append_assoc]

theorem exists_of_readSegments {scan : Scan} (hne : (splitText cs).2 ≠ [])
    (h : readSegments pos trims cs = .ok scan) :
    ∃ action closing rest,
      readBraces (pos.afterAll (splitText cs).1) (splitText cs).2 = .ok (action, closing) ∧
      readSegments closing.pos closing.trims closing.rest = .ok rest ∧
      scan.content =
        textTokens pos (trimText trims (opensTrimming (splitText cs).2) (splitText cs).1) ++
          (actionTokens action ++ rest.content) := by
  have hscan := h
  rw [readSegments_of_ne_nil hne] at h
  split at h
  · cases h
  next action closing hbraces =>
  split at h
  · cases h
  next rest hrest =>
  refine ⟨action, closing, rest, hbraces, hrest, ?_⟩
  obtain ⟨u, hu, hcontent⟩ := readSegments_of_readBraces pos trims hne hbraces hrest
  cases hscan.symm.trans hu
  exact hcontent

/-- **A source is read in the same way wherever it starts.** -/
theorem readSegments_relocate {scan : Scan} (h : readSegments pos trims cs = .ok scan) :
    ∀ pos', ∃ scan', readSegments pos' trims cs = .ok scan' ∧ Alike scan'.content scan.content := by
  induction h using readSegments_induction with
  | finish pos trims cs hnil _ =>
    exact fun pos' => ⟨_, readSegments_of_nil hnil, textTokens_alike ..⟩
  | braces pos trims cs action closing scan hne hbraces hrest h ih =>
    intro pos'
    obtain ⟨action', closing', hbraces', haction, htrims, hleft⟩ :=
      readBraces_followed hbraces (pos'.afterAll (splitText cs).1) []
    obtain ⟨scan', hrest', hscan⟩ := ih closing'.pos
    rw [List.append_nil] at hbraces' hleft
    rw [← htrims, ← hleft] at hrest'
    obtain ⟨u, hu, hcontent⟩ := readSegments_of_readBraces pos' trims hne hbraces' hrest'
    refine ⟨u, hu, ?_⟩
    rw [hcontent]
    simp only [Scan.content, List.flatMap_append, List.append_assoc]
    exact (textTokens_alike ..).append_append (haction.append_append hscan)

/-- The tokens `us` are the tokens `ss` with the tokens `ts` behind them, perhaps at other places,
and but for the text at the end of `ss` and at the beginning of `ts`. -/
inductive Joins (ss ts us : List Token) : Prop
  | mk {front front' before between after back back' : List Token} (hs : ss = front ++ before)
      (ht : ts = after ++ back) (hu : us = front' ++ (between ++ back'))
      (hfront : Alike front' front) (hback : Alike back' back) (hbefore : AllText before)
      (hbetween : AllText between) (hafter : AllText after)

theorem Joins.append {ss ts us xs xs' : List Token} (hx : Alike xs' xs) (h : Joins ss ts us) :
    Joins (xs ++ ss) ts (xs' ++ us) := by
  obtain ⟨rfl, rfl, rfl, hfront, hback, hbefore, hbetween, hafter⟩ := h
  exact ⟨(List.append_assoc ..).symm, rfl, (List.append_assoc ..).symm, hx.append_append hfront,
    hback, hbefore, hbetween, hafter⟩

theorem Joins.of_text {ss ts us between after back back' : List Token} (hss : AllText ss)
    (ht : ts = after ++ back) (hu : us = between ++ back') (hback : Alike back' back)
    (hbetween : AllText between) (hafter : AllText after) : Joins ss ts us :=
  @Joins.mk ss ts us [] [] ss between after back back' rfl ht hu (.refl []) hback hss hbetween
    hafter

/-- Text with a source behind it: the texts fuse, and then the source is read as before. -/
theorem readSegments_text_append {t : Scan} (hnil : (splitText cs).2 = [])
    (ht : readSegments .start false ds = .ok t) (hseam : ¬ OpensAcross cs ds) {ss : List Token}
    (hss : AllText ss) :
    ∃ u, readSegments pos trims (cs ++ ds) = .ok u ∧ Joins ss t.content u.content := by
  have hsplit := splitText_across hnil hseam
  by_cases hds : (splitText ds).2 = []
  · have hu : (splitText (cs ++ ds)).2 = [] := by rw [hsplit, hds]
    rw [readSegments_of_nil hds] at ht
    cases ht
    exact ⟨_, readSegments_of_nil hu, .of_text hss (List.append_nil _).symm
      (List.append_nil _).symm (.refl []) (allText_textTokens _ _) (allText_textTokens _ _)⟩
  · obtain ⟨action, closing, rest, hbraces, hrest, hcontent⟩ := exists_of_readSegments hds ht
    obtain ⟨action', closing', hbraces', haction, htrims, hleft⟩ :=
      readBraces_followed hbraces (pos.afterAll (cs ++ (splitText ds).1)) []
    obtain ⟨rest', hrest', halike⟩ := readSegments_relocate hrest closing'.pos
    rw [List.append_nil] at hbraces' hleft
    rw [← htrims, ← hleft] at hrest'
    have hne : (splitText (cs ++ ds)).2 ≠ [] := by rwa [hsplit]
    obtain ⟨u, hu, hucontent⟩ := readSegments_of_readBraces pos trims hne
      (by rw [hsplit]; exact hbraces') hrest'
    exact ⟨u, hu, .of_text hss hcontent hucontent (haction.append_append halike)
      (allText_textTokens _ _) (allText_textTokens _ _)⟩

/-- **One source behind another is read as the two are**, unless a left delimiter comes about where
they meet. -/
theorem readSegments_append {s t : Scan} (hs : readSegments pos trims cs = .ok s)
    (ht : readSegments .start false ds = .ok t) (hseam : ¬ OpensAcross cs ds) :
    ∀ pos', ∃ u, readSegments pos' trims (cs ++ ds) = .ok u ∧
      Joins s.content t.content u.content := by
  induction hs using readSegments_induction with
  | finish pos trims cs hnil _ =>
    exact fun pos' => readSegments_text_append hnil ht hseam (allText_textTokens _ _)
  | braces pos trims cs action closing scan hne hbraces hrest _ ih =>
    intro pos'
    obtain ⟨action', closing', hbraces', haction, htrims, hleft⟩ :=
      readBraces_followed hbraces (pos'.afterAll (splitText cs).1) ds
    have hsuffix : closing.rest <:+ cs := by
      refine (rest_suffix_of_readBraces hbraces).trans ⟨(splitText cs).1, splitText_append cs⟩
    have hseam' : ¬ OpensAcross closing.rest ds := fun ⟨hlast, hfirst⟩ => by
      obtain ⟨xs, rfl⟩ := hsuffix
      refine hseam ⟨?_, hfirst⟩
      rw [List.getLast?_append, hlast]
      rfl
    obtain ⟨u, hu, hjoins⟩ := ih hseam' closing'.pos
    rw [← htrims, ← hleft] at hu
    have hsplit := splitText_followed hne ds
    have hne' : (splitText (cs ++ ds)).2 ≠ [] := by
      rw [hsplit]
      exact List.append_ne_nil_of_left_ne_nil hne ds
    obtain ⟨v, hv, hcontent⟩ := readSegments_of_readBraces pos' trims hne'
      (by rw [hsplit]; exact hbraces') hu
    refine ⟨v, hv, ?_⟩
    rw [hcontent, hsplit, opensTrimming_followed (four_le_of_readBraces hbraces)]
    simp only [Scan.content, List.flatMap_append, List.append_assoc]
    exact .append (textTokens_alike ..) (.append haction hjoins)

end Scan

end Fieldwise
