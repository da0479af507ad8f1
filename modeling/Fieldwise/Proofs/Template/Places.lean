import Fieldwise.Proofs.Template.Seam
import Mathlib.Data.List.DropRight

/-!
# Places in a source

Every place that reading a source comes across lies at a boundary between two characters of it, or
at its beginning or end.

* `IsBoundary`, `StandsAt` : such places, and the characters that are still to be read there.
* `Pos.afterAll_start`, `IsBoundary.exists_prefix` : lines and columns, counted in the source.
* `Points` : what a result says of places, whether it is a refusal or a value.
* `Scan.Placed` : every place in the segments of a source has a property.
* `Scan.ofSource_points` : the segments of a source are placed at boundaries, and a source without
  segments is refused at one.

What is carried along while reading is `StandsAt`: the characters left to read are those of the
source behind the place at hand.
-/

set_option autoImplicit false

namespace Fieldwise

/-! ## Boundaries -/

/-- The place behind some first characters of a source, perhaps all or none of them. -/
def IsBoundary (source : List Char) (p : Pos) : Prop :=
  ∃ before, before <+: source ∧ Pos.start.afterAll before = p

/-- The characters `cs` stand at `p` and end the source. -/
def StandsAt (source : List Char) (p : Pos) (cs : List Char) : Prop :=
  ∃ before, before ++ cs = source ∧ Pos.start.afterAll before = p

namespace StandsAt

variable {source cs ds : List Char} {p : Pos} {c : Char}

theorem start (source : List Char) : StandsAt source .start source :=
  ⟨[], rfl, rfl⟩

theorem isBoundary (h : StandsAt source p cs) : IsBoundary source p := by
  obtain ⟨before, hsource, hp⟩ := h
  exact ⟨before, ⟨cs, hsource⟩, hp⟩

theorem afterAll (h : StandsAt source p (cs ++ ds)) : StandsAt source (p.afterAll cs) ds := by
  obtain ⟨before, hsource, rfl⟩ := h
  exact ⟨before ++ cs, by rw [List.append_assoc, hsource], Pos.afterAll_append _ _ _⟩

theorem after (h : StandsAt source p (c :: cs)) : StandsAt source (p.after c) cs :=
  @StandsAt.afterAll source [c] cs p h

theorem take (h : StandsAt source p cs) (n : Nat) :
    StandsAt source (p.afterAll (cs.take n)) (cs.drop n) :=
  afterAll (by rwa [List.take_append_drop])

theorem takeWhile (h : StandsAt source p cs) (f : Char → Bool) :
    StandsAt source (p.afterAll (cs.takeWhile f)) (cs.dropWhile f) :=
  afterAll (by rwa [List.takeWhile_append_dropWhile])

end StandsAt

/-! ## Lines and columns -/

/-- Lines are counted by line feeds, columns from the last of them. -/
theorem Pos.afterAll_start (cs : List Char) :
    Pos.start.afterAll cs = ⟨1 + cs.count '\n', 1 + (cs.rtakeWhile (· != '\n')).length⟩ := by
  induction cs using List.reverseRecOn with
  | nil => rfl
  | append_singleton cs c ih =>
    rw [afterAll_append, ih, afterAll_cons, afterAll_nil, after, List.count_append,
      List.rtakeWhile_concat]
    by_cases hc : c = '\n'
    · simp [hc, Nat.add_assoc]
    · simp [hc, Nat.add_assoc]

namespace IsBoundary

variable {source : List Char} {p : Pos}

/-- **A boundary, counted in the source**: there are first characters of the source whose line feeds
tell the line, and what follows the last of these the column. -/
theorem exists_prefix (h : IsBoundary source p) :
    ∃ before, before <+: source ∧ p.line = 1 + before.count '\n' ∧
      p.column = 1 + (before.rtakeWhile (· != '\n')).length := by
  obtain ⟨before, hprefix, rfl⟩ := h
  exact ⟨before, hprefix, by rw [Pos.afterAll_start], by rw [Pos.afterAll_start]⟩

theorem line_le (h : IsBoundary source p) : p.line ≤ source.length + 1 := by
  obtain ⟨before, hprefix, hline, -⟩ := h.exists_prefix
  have hcount : before.count '\n' ≤ before.length := List.count_le_length
  have hlength := hprefix.length_le
  omega

theorem column_le (h : IsBoundary source p) : p.column ≤ source.length + 1 := by
  obtain ⟨before, hprefix, -, hcolumn⟩ := h.exists_prefix
  have hsuffix := (List.rtakeWhile_suffix (· != '\n') before).length_le
  have hlength := hprefix.length_le
  omega

end IsBoundary

/-! ## Results that point to places -/

section Points

variable {α β : Type} {P : Pos → Prop} {Q : α → Prop} {R : β → Prop}

/-- A refusal points to a place with the property `P`, a value has the property `Q`. -/
def Points (P : Pos → Prop) (Q : α → Prop) : Except TemplateError α → Prop
  | .error e => P e.pos
  | .ok a => Q a

namespace Points

variable {r : Except TemplateError α} {e : TemplateError} {a : α}

theorem of_error (h : Points P Q r) (hr : r = .error e) : Points P R (.error e) := by
  subst hr
  exact h

theorem of_ok (h : Points P Q r) (hr : r = .ok a) : Q a := by
  subst hr
  exact h

theorem map {f : α → β} (h : Points P Q r) (hf : ∀ a, Q a → R (f a)) : Points P R (r.map f) := by
  cases r with
  | error e => exact h
  | ok a => exact hf a h

end Points

end Points

/-! ## Segments -/

/-- Every place in an action has the property `P`. -/
structure Action.Placed (P : Pos → Prop) (a : Action) : Prop where
  opened : P a.opened
  tokens : ∀ t ∈ a.tokens, P t.pos
  close : P a.close.pos

/-- Every place in a segment has the property `P`. -/
def Segment.Placed (P : Pos → Prop) : Segment → Prop
  | .text pos _ => P pos
  | .action a => a.Placed P

/-- Every place in the segments of a source, and its end, have the property `P`. -/
structure Scan.Placed (P : Pos → Prop) (scan : Scan) : Prop where
  segments : ∀ s ∈ scan.segments, s.Placed P
  finish : P scan.finish

theorem Segment.Placed.pos {P : Pos → Prop} {s : Segment} (h : s.Placed P) : P s.pos := by
  cases s with
  | text pos s => exact h
  | action a => exact Action.Placed.opened h

namespace Scan

variable {source cs : List Char} {opened pos : Pos}

/-- The tokens of an action lie at boundaries, and what is left stands where it is said to. -/
structure Body.Placed (source : List Char) (body : Body) : Prop where
  tokens : ∀ t ∈ body.tokens, IsBoundary source t.pos
  close : IsBoundary source body.close.pos
  closing : StandsAt source body.closing.pos body.closing.rest

/-- **Reading an action comes across boundaries only.** -/
theorem readAction_points (hopened : IsBoundary source opened) (space : Bool)
    (h : StandsAt source pos cs) :
    Points (IsBoundary source) (Body.Placed source) (readAction opened pos space cs) := by
  induction hlength : cs.length using Nat.strongRecOn generalizing pos space cs with
  | ind n ih =>
    subst hlength
    cases cs with
    | nil =>
      rw [readAction_nil]
      exact hopened
    | cons c tail =>
      rw [readAction_cons]
      split
      · exact ih _ (Nat.lt_succ_self _) true h.after rfl
      split
      · exact ⟨nofun, h.isBoundary, h.take 3⟩
      split
      · exact ⟨nofun, h.isBoundary, h.take 2⟩
      split
      · exact h.isBoundary
      next lexeme hlexeme =>
      have hrest : StandsAt source (pos.afterAll lexeme.chars) lexeme.rest :=
        .afterAll (by rwa [Lexeme.chars_append_rest hlexeme])
      have hread := ih _ (Nat.lt_succ_of_le (Lexeme.length_rest_le hlexeme)) false hrest rfl
      split
      · next herror => exact hread.of_error herror
      · next body hbody =>
        obtain ⟨htokens, hclose, hclosing⟩ := hread.of_ok hbody
        exact ⟨List.forall_mem_cons.mpr ⟨h.isBoundary, htokens⟩, hclose, hclosing⟩

theorem readComment_points (hopened : IsBoundary source opened) (h : StandsAt source pos cs) :
    Points (IsBoundary source) (fun closing => StandsAt source closing.pos closing.rest)
      (readComment opened pos cs) := by
  rw [readComment]
  split
  · exact hopened
  next inside rest hsplit =>
  have hrest : StandsAt source (pos.afterAll inside) rest :=
    .afterAll (by rwa [splitComment_append hsplit])
  have hspace := hrest.takeWhile isSpace
  dsimp only
  split
  · exact hspace.take 3
  split
  · exact hspace.take 2
  · exact hopened

/-- Reading braces comes across boundaries only. -/
theorem readBraces_points (h : StandsAt source opened cs) :
    Points (IsBoundary source)
      (fun read => (∀ a ∈ read.1, a.Placed (IsBoundary source)) ∧
        StandsAt source read.2.pos read.2.rest) (readBraces opened cs) := by
  have hbehind : StandsAt source
      (opened.afterAll (if opensTrimming cs then cs.take 3 else cs.take 2)) (behindDelim cs) := by
    rw [behindDelim]
    split
    · exact h.take 3
    · exact h.take 2
  have hinside := hbehind.takeWhile isSpace
  rw [readBraces_eq]
  dsimp only
  split
  · have hcomment := readComment_points h.isBoundary (hinside.take 2)
    split
    · next herror => exact hcomment.of_error herror
    · next closing hclosing => exact ⟨nofun, hcomment.of_ok hclosing⟩
  · have haction := readAction_points h.isBoundary
      (!((behindDelim cs).takeWhile isSpace).isEmpty) hinside
    split
    · next herror => exact haction.of_error herror
    · next body hbody =>
      obtain ⟨htokens, hclose, hclosing⟩ := haction.of_ok hbody
      exact ⟨fun a ha => by cases ha; exact ⟨h.isBoundary, htokens, hclose⟩, hclosing⟩

theorem placed_textSegment {P : Pos → Prop} (hpos : P pos) (s : List Char) :
    ∀ segment ∈ textSegment pos s, segment.Placed P := by
  intro segment hsegment
  rw [textSegment] at hsegment
  split at hsegment
  · cases hsegment
  · rw [List.mem_singleton.mp hsegment]
    exact hpos

theorem readSegments_points (trims : Bool) (h : StandsAt source pos cs) :
    Points (IsBoundary source) (Scan.Placed (IsBoundary source)) (readSegments pos trims cs) := by
  induction hlength : cs.length using Nat.strongRecOn generalizing pos trims cs with
  | ind n ih =>
    subst hlength
    have hbraces : StandsAt source (pos.afterAll (splitText cs).1) (splitText cs).2 :=
      .afterAll (by rwa [splitText_append])
    by_cases hnil : (splitText cs).2 = []
    · rw [readSegments_of_nil hnil]
      exact ⟨placed_textSegment h.isBoundary _, hbraces.isBoundary⟩
    · rw [readSegments_of_ne_nil hnil]
      have hread := readBraces_points hbraces
      split
      · next herror => exact hread.of_error herror
      next action closing hclosing =>
      obtain ⟨haction, hrest⟩ := hread.of_ok hclosing
      have hlt : closing.rest.length < cs.length := by
        have hless := length_readBraces_lt hnil hclosing
        have hsplit := congrArg List.length (splitText_append cs)
        rw [List.length_append] at hsplit
        omega
      have hscan := ih _ hlt closing.trims hrest rfl
      split
      · next herror => exact hscan.of_error herror
      · next scan hok =>
        obtain ⟨hsegments, hfinish⟩ := hscan.of_ok hok
        refine ⟨fun s hs => ?_, hfinish⟩
        simp only [List.mem_append, Option.mem_toList, Option.map_eq_some_iff] at hs
        obtain (hs | ⟨a, ha, rfl⟩) | hs := hs
        · exact placed_textSegment h.isBoundary _ s hs
        · exact haction a ha
        · exact hsegments s hs

/-- **The segments of a source are placed at boundaries**, and so are the refusals of a source that
does not fall into segments. -/
theorem ofSource_points (source : String) :
    Points (IsBoundary source.toList) (Scan.Placed (IsBoundary source.toList)) (ofSource source) :=
  readSegments_points false (.start source.toList)

end Scan

end Fieldwise
