import Fieldwise.Template.Lexeme
import Fieldwise.Text.Space

/-!
# Segments of a template

A source falls into stretches of text and actions in double braces. An action may open or
close with a trim marker, a hyphen beside space, which removes the space of the text next to
it; an action that holds nothing but a comment leaves nothing behind.

`Scan.ofSource` splits a source into its segments, and `Scan.tokens` is the flat list of
tokens that they stand for.
-/

set_option autoImplicit false

namespace Fieldwise

/-- The tokens between a left delimiter and the right delimiter that ends them. -/
structure Action where
  opened : Pos
  tokens : List Token
  close : Token
  deriving DecidableEq, Repr

/-- A stretch of text, with the space that trim markers take away removed, or an action. -/
inductive Segment where
  | text (pos : Pos) (s : String)
  | action (a : Action)
  deriving DecidableEq, Repr

namespace Segment

/-- Where a segment starts. -/
def pos : Segment → Pos
  | text pos _ => pos
  | action a => a.opened

/-- The tokens of a segment, delimiters included. -/
def tokens : Segment → List Token
  | text pos s => [⟨.text s, pos, false⟩]
  | action a => ⟨.leftDelim, a.opened, false⟩ :: a.tokens ++ [a.close]

end Segment

/-- The segments of a source and the place after its last character. -/
structure Scan where
  segments : List Segment
  finish : Pos
  deriving DecidableEq, Repr

namespace Scan

/-- Every token of a source, up to the one for its end. -/
def tokens (s : Scan) : List Token :=
  s.segments.flatMap Segment.tokens ++ [⟨.eof, s.finish, false⟩]

/-! ## Text -/

/-- Splits a source before its first left delimiter. -/
def splitText : List Char → List Char × List Char
  | '\x7b' :: '\x7b' :: rest => ([], '\x7b' :: '\x7b' :: rest)
  | [] => ([], [])
  | c :: rest => (c :: (splitText rest).1, (splitText rest).2)

/-- A left delimiter with a trim marker. -/
def opensTrimming : List Char → Bool
  | '\x7b' :: '\x7b' :: '-' :: c :: _ => isSpace c
  | _ => false

/-- A text without the space that the trim markers around it take away. -/
def trimText (before after : Bool) (s : List Char) : List Char :=
  let s := if before then s.dropWhile isSpace else s
  if after then Text.dropWhileEnd isSpace s else s

/-! ## The inside of an action -/

/-- A right delimiter. -/
def closes : List Char → Bool
  | '\x7d' :: '\x7d' :: _ => true
  | _ => false

/-- A right delimiter with a trim marker; it counts only behind space. -/
def closesTrimming : List Char → Bool
  | '-' :: '\x7d' :: '\x7d' :: _ => true
  | _ => false

/-- The mark that starts a comment. -/
def opensComment : List Char → Bool
  | '/' :: '*' :: _ => true
  | _ => false

/-- How an action or a comment ended: whether it trims the text after it, and what is left. -/
structure Closing where
  trims : Bool
  pos : Pos
  rest : List Char

/-- The tokens of an action, its right delimiter, and what is left. -/
structure Body where
  tokens : List Token
  close : Token
  closing : Closing

/-- Reads the tokens of the action opened at `opened`. The flag tells whether space stands
before `cs`. -/
def readAction (opened pos : Pos) (space : Bool) (cs : List Char) :
    Except TemplateError Body :=
  match cs with
  | [] => .error ⟨opened, .unclosedAction⟩
  | c :: tail =>
    if isSpace c then readAction opened (pos.after c) true tail
    else if space && closesTrimming cs then
      .ok ⟨[], ⟨.rightDelim, pos, true⟩, ⟨true, pos.afterAll (cs.take 3), cs.drop 3⟩⟩
    else if closes cs then
      .ok ⟨[], ⟨.rightDelim, pos, space⟩, ⟨false, pos.afterAll (cs.take 2), cs.drop 2⟩⟩
    else
      match h : Lexeme.scan c tail with
      | .error fault => .error ⟨pos, fault⟩
      | .ok lexeme =>
        have := Lexeme.length_rest_le h
        match readAction opened (pos.afterAll lexeme.chars) false lexeme.rest with
        | .error e => .error e
        | .ok body => .ok { body with tokens := ⟨lexeme.kind, pos, space⟩ :: body.tokens }
termination_by cs.length

/-- Splits off a comment's inside together with the mark that ends it. -/
def splitComment : List Char → Option (List Char × List Char)
  | '*' :: '/' :: rest => some (['*', '/'], rest)
  | [] => none
  | c :: rest => (splitComment rest).map fun (inside, rest) => (c :: inside, rest)

/-- Reads a comment, its opening mark already passed, up to the right delimiter. -/
def readComment (opened pos : Pos) (cs : List Char) : Except TemplateError Closing :=
  match splitComment cs with
  | none => .error ⟨opened, .unclosedComment⟩
  | some (inside, rest) =>
    let space := rest.takeWhile isSpace
    let pos := (pos.afterAll inside).afterAll space
    let rest := rest.dropWhile isSpace
    if !space.isEmpty && closesTrimming rest then
      .ok ⟨true, pos.afterAll (rest.take 3), rest.drop 3⟩
    else if closes rest then
      .ok ⟨false, pos.afterAll (rest.take 2), rest.drop 2⟩
    else .error ⟨opened, .textAfterComment⟩

/-- Reads what stands behind a left delimiter: an action, or a comment that leaves nothing. -/
def readBraces (opened : Pos) (cs : List Char) :
    Except TemplateError (Option Action × Closing) :=
  let lead := if opensTrimming cs then cs.take 3 else cs.take 2
  let inside := if opensTrimming cs then cs.drop 3 else cs.drop 2
  let space := inside.takeWhile isSpace
  let pos := (opened.afterAll lead).afterAll space
  let inside := inside.dropWhile isSpace
  if opensComment inside then
    match readComment opened (pos.afterAll (inside.take 2)) (inside.drop 2) with
    | .error e => .error e
    | .ok closing => .ok (none, closing)
  else
    match readAction opened pos (!space.isEmpty) inside with
    | .error e => .error e
    | .ok body => .ok (some ⟨opened, body.tokens, body.close⟩, body.closing)

/-! ## Every step leaves less -/

theorem splitText_append (cs : List Char) : (splitText cs).1 ++ (splitText cs).2 = cs := by
  fun_induction splitText cs <;> simp_all

theorem length_readAction_lt {opened pos : Pos} {space : Bool} {cs : List Char} {body : Body}
    (h : readAction opened pos space cs = .ok body) :
    body.closing.rest.length < cs.length := by
  fun_induction readAction opened pos space cs generalizing body with
  | case1 => simp at h
  | case2 _ _ _ _ _ ih => exact Nat.lt_succ_of_lt (ih h)
  | case3 =>
    rw [if_pos ‹_›] at h
    cases h
    simp only [List.length_drop, List.length_cons]
    omega
  | case4 =>
    rw [if_neg ‹_›, if_pos ‹_›] at h
    cases h
    simp only [List.length_drop, List.length_cons]
    omega
  | case5 =>
    rw [if_neg ‹_›, if_neg ‹_›] at h
    split at h <;> simp_all
  | case6 =>
    rw [if_neg ‹_›, if_neg ‹_›] at h
    split at h <;> simp_all
  | case7 _ _ _ _ _ _ hs hle _ hr _ _ ih =>
    rw [if_neg ‹_›, if_neg ‹_›] at h
    have h1 := ih hr
    simp only [List.length_cons]
    split at h
    · simp_all
    · simp_all
      subst h
      simp only
      omega

theorem length_splitComment_le {cs inside rest : List Char}
    (h : splitComment cs = some (inside, rest)) : rest.length ≤ cs.length := by
  fun_induction splitComment cs generalizing inside rest with
  | case1 => cases h; simp; omega
  | case2 => simp at h
  | case3 c tail _ ih =>
    simp only [Option.map_eq_some_iff, Prod.mk.injEq, Prod.exists] at h
    obtain ⟨_, _, hs, _, rfl⟩ := h
    exact Nat.le_succ_of_le (ih hs)

theorem length_readComment_le {opened pos : Pos} {cs : List Char} {closing : Closing}
    (h : readComment opened pos cs = .ok closing) : closing.rest.length ≤ cs.length := by
  simp only [readComment] at h
  split at h
  · simp at h
  · next inside rest hs =>
    have h1 := length_splitComment_le hs
    have h2 := (List.dropWhile_sublist isSpace (l := rest)).length_le
    split at h
    · cases h; simp; omega
    · split at h
      · cases h; simp; omega
      · simp at h

theorem length_readBraces_lt {opened : Pos} {cs : List Char} {action : Option Action}
    {closing : Closing} (hne : cs ≠ []) (h : readBraces opened cs = .ok (action, closing)) :
    closing.rest.length < cs.length := by
  have hpos := List.length_pos_iff.mpr hne
  have h1 : (if opensTrimming cs then cs.drop 3 else cs.drop 2).length < cs.length := by
    split <;> simp <;> omega
  simp only [readBraces] at h
  generalize (if opensTrimming cs then cs.drop 3 else cs.drop 2) = inside at h h1
  have h2 := (List.dropWhile_sublist isSpace (l := inside)).length_le
  split at h
  · split at h
    · simp at h
    · next hc =>
      cases h
      have h3 := length_readComment_le hc
      simp only [List.length_drop] at h3
      omega
  · split at h
    · simp at h
    · next hc =>
      cases h
      have h3 := length_readAction_lt hc
      omega

/-! ## The whole source -/

/-- A text segment, unless the text is empty. -/
def textSegment (pos : Pos) (s : List Char) : List Segment :=
  if s.isEmpty then [] else [.text pos (String.ofList s)]

/-- Reads the segments of `cs`; the flag tells whether the action before it trims. -/
def readSegments (pos : Pos) (trims : Bool) (cs : List Char) : Except TemplateError Scan :=
  let written := (splitText cs).1
  match hrest : (splitText cs).2 with
  | [] => .ok ⟨textSegment pos (trimText trims false written), pos.afterAll written⟩
  | c :: tail =>
    let opened := pos.afterAll written
    match h : readBraces opened (c :: tail) with
    | .error e => .error e
    | .ok (action, closing) =>
      have : closing.rest.length < cs.length := by
        have h1 := length_readBraces_lt (by simp) h
        have h2 := congrArg List.length (splitText_append cs)
        simp only [List.length_append, hrest] at h2
        omega
      match readSegments closing.pos closing.trims closing.rest with
      | .error e => .error e
      | .ok scan =>
        .ok { scan with
          segments := textSegment pos (trimText trims (opensTrimming (c :: tail)) written)
            ++ (action.map Segment.action).toList ++ scan.segments }
termination_by cs.length

/-- The segments of a source. -/
def ofSource (source : String) : Except TemplateError Scan :=
  readSegments .start false source.toList

end Scan

end Fieldwise
