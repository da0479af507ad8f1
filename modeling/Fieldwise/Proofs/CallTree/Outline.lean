import Fieldwise.CallTree.Outline
import Fieldwise.Proofs.CallTree.Growth
import Fieldwise.Proofs.Validation.Consistency

/-!
# Outlines tell trees apart

* `Heading` : what a line of an outline says, and `Heading.text_inj` : its text tells it, if names
  have none of the marks that lines are made of.
* `lines_of_render` : the printed text tells the lines.
* `Block` : a heading with the deeper lines below it, and `blocks_of_lines` : lines tell the blocks
  that they are made of.
* `CallTree.select_outlineBlocks`, `CallTree.select_bodyBlocks` : the blocks of a node tell what lies
  below each step from it.
* `CallTree.outline_eq_iff` : so trees with one outline are equal.

A node is printed in two ways: on its own with the elements first, and below the heading of an
iterated field with the fields first. As headings tell elements and fields apart, this does not
matter to what is read off the blocks.
-/

set_option autoImplicit false

namespace Fieldwise

/-- Where two lists go on with what fails `p`, an equation between them splits. -/
theorem append_inj_of_head {α : Type} {p : α → Bool} {as bs rest rest' : List α}
    (has : ∀ x ∈ as, p x = true) (hbs : ∀ x ∈ bs, p x = true)
    (hrest : ∀ x ∈ rest.head?, p x = false) (hrest' : ∀ x ∈ rest'.head?, p x = false)
    (h : as ++ rest = bs ++ rest') : as = bs ∧ rest = rest' := by
  have htake : ∀ {front behind : List α}, (∀ x ∈ front, p x = true) →
      (∀ x ∈ behind.head?, p x = false) → (front ++ behind).takeWhile p = front := by
    intro front behind hfront hbehind
    rw [List.takeWhile_append_of_pos hfront]
    cases behind with
    | nil => simp
    | cons x behind => simp [hbehind x rfl]
  have hfront : as = bs := by
    rw [← htake has hrest, h, htake hbs hrest']
  rw [hfront] at h
  exact ⟨hfront, List.append_cancel_left h⟩

/-! ## Headings -/

/-- A name that a line can show: it is not empty and has none of the marks that lines are made
of. -/
structure IsOutlineName (name : String) : Prop where
  ne_empty : name ≠ ""
  newline : '\n' ∉ name.toList
  colon : ':' ∉ name.toList
  bracket : '[' ∉ name.toList

instance (name : String) : Decidable (IsOutlineName name) :=
  decidable_of_iff (name ≠ "" ∧ '\n' ∉ name.toList ∧ ':' ∉ name.toList ∧ '[' ∉ name.toList)
    ⟨fun ⟨h, hn, hc, hb⟩ => ⟨h, hn, hc, hb⟩, fun ⟨h, hn, hc, hb⟩ => ⟨h, hn, hc, hb⟩⟩

/-- What a line of an outline says. -/
inductive Heading where
  | elements
  | list (name : String)
  | record (name : String)
  | leaf (name : String)
  deriving DecidableEq

namespace Heading

/-- The text of the line. -/
def text : Heading → String
  | elements => "- []:"
  | list name => "- []" ++ name ++ ":"
  | record name => "- " ++ name ++ ":"
  | leaf name => "- " ++ name

/-- The name of the field that the line is about; none if it is about the elements of a node. -/
def name? : Heading → Option String
  | elements => none
  | list name | record name | leaf name => some name

/-- The line can show the name in it. -/
def Shown (h : Heading) : Prop :=
  ∀ name, h.name? = some name → IsOutlineName name

variable {g h : Heading}

theorem exists_text (h : Heading) : ∃ cs, h.text.toList = '-' :: cs := by
  cases h <;> simp [text]

theorem newline_notMem_text (hh : h.Shown) : '\n' ∉ h.text.toList := by
  cases h with
  | elements => decide
  | _ name => simp [text, (hh name rfl).newline]

theorem bracket_mem_text (hh : h.Shown) :
    '[' ∈ h.text.toList ↔ h = elements ∨ ∃ name, h = list name := by
  cases h with
  | elements => simp [text]
  | list name => simp [text]
  | _ name => simp [text, (hh name rfl).bracket]

theorem colon_mem_text (hh : h.Shown) : ':' ∈ h.text.toList ↔ ∀ name, h ≠ leaf name := by
  cases h with
  | leaf name => simp [text, (hh name rfl).colon]
  | _ => simp [text]

/-- **The text of a line tells what it says.** -/
theorem text_inj (hg : g.Shown) (hh : h.Shown) (heq : g.text = h.text) : g = h := by
  have hbracket := bracket_mem_text hg
  have hcolon := colon_mem_text hg
  rw [heq, bracket_mem_text hh] at hbracket
  rw [heq, colon_mem_text hh] at hcolon
  have hchars := congrArg String.toList heq
  cases g with
  | elements =>
    cases h with
    | elements => rfl
    | list name => exact absurd (by simpa [text] using hchars) (hh name rfl).ne_empty
    | _ => simp at hbracket
  | list name =>
    cases h with
    | elements => exact absurd (by simpa [text] using hchars) (hg name rfl).ne_empty
    | list other => simpa [text, String.toList_inj] using hchars
    | _ => simp at hbracket
  | record name =>
    cases h with
    | record other => simpa [text, String.toList_inj] using hchars
    | leaf other => simp at hcolon
    | _ => simp at hbracket
  | leaf name =>
    cases h with
    | leaf other => simpa [text, String.toList_inj] using hchars
    | record other => simp at hcolon
    | _ => simp at hbracket

end Heading

/-! ## Lines -/

/-- No line lies less deep than `depth`, and each has the text of a heading that can be shown. -/
def Indented (depth : Nat) (lines : List OutlineLine) : Prop :=
  ∀ l ∈ lines, depth ≤ l.depth ∧ ∃ h : Heading, h.Shown ∧ l.text = h.text

theorem Indented.mono {depth depth' : Nat} {lines : List OutlineLine} (h : Indented depth lines)
    (hle : depth' ≤ depth) : Indented depth' lines :=
  fun l hl => (h l hl).imp_left hle.trans

theorem OutlineLine.toList_render (l : OutlineLine) :
    l.render.toList =
      List.replicate (l.depth * outlineIndent) ' ' ++ l.text.toList ++ ['\n'] := by
  simp [render]

/-- A line is told by its characters up to the line feed: the spaces tell its depth. -/
theorem OutlineLine.ext_of_chars {l l' : OutlineLine} {h h' : Heading} (hl : l.text = h.text)
    (hl' : l'.text = h'.text)
    (heq : List.replicate (l.depth * outlineIndent) ' ' ++ l.text.toList =
      List.replicate (l'.depth * outlineIndent) ' ' ++ l'.text.toList) : l = l' := by
  have hhyphen : ∀ {l : OutlineLine} {h : Heading}, l.text = h.text →
      ∀ c ∈ l.text.toList.head?, (c == ' ') = false := by
    intro l h hl c hc
    obtain ⟨cs, hcs⟩ := h.exists_text
    rw [hl, hcs, List.head?_cons, Option.mem_some] at hc
    subst hc
    rfl
  have hspaces : ∀ n, ∀ c ∈ List.replicate n ' ', (c == ' ') = true :=
    fun n c hc => beq_iff_eq.mpr (List.eq_of_mem_replicate hc)
  obtain ⟨hindent, htext⟩ :=
    append_inj_of_head (hspaces _) (hspaces _) (hhyphen hl) (hhyphen hl') heq
  obtain ⟨depth, text⟩ := l
  obtain ⟨depth', text'⟩ := l'
  have hdepth : depth * outlineIndent = depth' * outlineIndent := by
    simpa using congrArg List.length hindent
  obtain rfl : depth = depth' := Nat.eq_of_mul_eq_mul_right (by decide) hdepth
  obtain rfl : text = text' := String.toList_inj.mp htext
  rfl

/-- **The printed text tells the lines.** -/
theorem lines_of_render {lines lines' : List OutlineLine} (h : Indented 0 lines)
    (h' : Indented 0 lines')
    (heq : String.join (lines.map OutlineLine.render) =
      String.join (lines'.map OutlineLine.render)) : lines = lines' := by
  have hchars := congrArg String.toList heq
  simp only [String.toList_join, List.flatMap_map, OutlineLine.toList_render] at hchars
  clear heq
  induction lines generalizing lines' with
  | nil =>
    cases lines' with
    | nil => rfl
    | cons l' rest' => simp at hchars
  | cons l rest ih =>
    cases lines' with
    | nil => simp at hchars
    | cons l' rest' =>
      obtain ⟨⟨-, g, hg, hl⟩, hrest⟩ := List.forall_mem_cons.mp h
      obtain ⟨⟨-, g', hg', hl'⟩, hrest'⟩ := List.forall_mem_cons.mp h'
      have hline : ∀ {l : OutlineLine} {g : Heading}, g.Shown → l.text = g.text →
          ∀ c ∈ List.replicate (l.depth * outlineIndent) ' ' ++ l.text.toList,
            (c != '\n') = true := by
        intro l g hg hl c hc
        rw [bne_iff_ne]
        rintro rfl
        rcases List.mem_append.mp hc with hc | hc
        · exact absurd (List.eq_of_mem_replicate hc) (by decide)
        · exact Heading.newline_notMem_text hg (hl ▸ hc)
      simp only [List.flatMap_cons, List.append_assoc _ ['\n']] at hchars
      obtain ⟨hfirst, hbehind⟩ := append_inj_of_head (hline hg hl) (hline hg' hl')
        (fun c hc => by cases hc; rfl) (fun c hc => by cases hc; rfl) hchars
      rw [OutlineLine.ext_of_chars hl hl' hfirst,
        ih hrest hrest' (List.append_cancel_left hbehind)]

/-! ## Blocks -/

/-- A heading and the lines below it. -/
abbrev Block : Type := Heading × List OutlineLine

namespace Block

variable {depth : Nat} {blocks blocks' : List Block}

/-- The lines of a block whose heading lies at the given depth. -/
def lines (depth : Nat) (b : Block) : List OutlineLine :=
  ⟨depth, b.1.text⟩ :: b.2

/-- The heading can be shown, and the lines below it lie deeper. -/
structure Proper (depth : Nat) (b : Block) : Prop where
  shown : b.1.Shown
  below : Indented (depth + 1) b.2

theorem indented_lines (h : ∀ b ∈ blocks, b.Proper depth) :
    Indented depth (blocks.flatMap (lines depth)) := by
  intro l hl
  obtain ⟨b, hb, hl⟩ := List.mem_flatMap.mp hl
  rcases List.mem_cons.mp hl with rfl | hl
  · exact ⟨le_rfl, b.1, (h b hb).shown, rfl⟩
  · exact (h b hb).below.mono (Nat.le_succ depth) l hl

/-- **Lines tell the blocks that they are made of.** -/
theorem blocks_of_lines (h : ∀ b ∈ blocks, b.Proper depth) (h' : ∀ b ∈ blocks', b.Proper depth)
    (heq : blocks.flatMap (lines depth) = blocks'.flatMap (lines depth)) : blocks = blocks' := by
  have hdeeper : ∀ {b : Block}, b.Proper depth → ∀ l ∈ b.2, decide (depth < l.depth) = true :=
    fun hb l hl => decide_eq_true (hb.below l hl).1
  have hnext : ∀ (blocks : List Block), ∀ l ∈ (blocks.flatMap (lines depth)).head?,
      decide (depth < l.depth) = false := by
    intro blocks l hl
    cases blocks with
    | nil => cases hl
    | cons b rest =>
      cases hl
      simp
  induction blocks generalizing blocks' with
  | nil =>
    cases blocks' with
    | nil => rfl
    | cons b' rest' => simp [lines] at heq
  | cons b rest ih =>
    cases blocks' with
    | nil => simp [lines] at heq
    | cons b' rest' =>
      obtain ⟨hb, hrest⟩ := List.forall_mem_cons.mp h
      obtain ⟨hb', hrest'⟩ := List.forall_mem_cons.mp h'
      simp only [List.flatMap_cons, lines, List.cons_append, List.cons.injEq,
        OutlineLine.mk.injEq, true_and] at heq
      obtain ⟨htext, hlines⟩ := heq
      obtain ⟨hbelow, hbehind⟩ :=
        append_inj_of_head (hdeeper hb) (hdeeper hb') (hnext rest) (hnext rest') hlines
      rw [Prod.ext (Heading.text_inj hb.shown hb'.shown htext) hbelow, ih hrest hrest' hbehind]

end Block

namespace CallTree

variable {s t : CallTree} {depth : Nat}

/-! ## The blocks of a node -/

/-- The lines of the elements of an iterated field: their fields, then their elements. -/
def bodyLines (depth : Nat) (t : CallTree) : List OutlineLine :=
  fieldsLines depth t.fields ++ elementLines depth t.element

/-- The block of the elements of a node. -/
def elementBlocks (depth : Nat) : Option CallTree → List Block
  | none => []
  | some e => [(.elements, outlineLines (depth + 1) e)]

/-- The blocks of a field: as a list, as a record, or as neither. -/
def memberBlocks (depth : Nat) (name : String) : CallTree → List Block
  | node none none => [(.leaf name, [])]
  | node none (some fs) => [(.record name, entriesLines (depth + 1) fs)]
  | node (some e) none => [(.list name, bodyLines (depth + 1) e)]
  | node (some e) (some fs) =>
    [(.list name, bodyLines (depth + 1) e), (.record name, entriesLines (depth + 1) fs)]

/-- The blocks of several fields. -/
def membersBlocks (depth : Nat) (fs : List (String × CallTree)) : List Block :=
  fs.flatMap fun entry => memberBlocks depth entry.1 entry.2

theorem elementLines_eq (element : Option CallTree) :
    elementLines depth element = (elementBlocks depth element).flatMap (Block.lines depth) := by
  cases element <;> simp [elementLines, elementBlocks, Block.lines, Heading.text]

theorem memberLines_eq (name : String) (t : CallTree) :
    memberLines depth name t = (memberBlocks depth name t).flatMap (Block.lines depth) := by
  obtain ⟨_ | ⟨e, fs⟩, _ | fs'⟩ := t <;>
    simp [memberLines, memberBlocks, listLines, bodyLines, Block.lines, Heading.text]

theorem entriesLines_eq (fs : List (String × CallTree)) :
    entriesLines depth fs = (membersBlocks depth fs).flatMap (Block.lines depth) := by
  induction fs with
  | nil => rfl
  | cons entry rest ih =>
    obtain ⟨name, t⟩ := entry
    rw [entriesLines, entryLines, memberLines_eq, ih, membersBlocks, membersBlocks,
      List.flatMap_cons, List.flatMap_append]

theorem fieldsLines_eq (t : CallTree) : fieldsLines depth t.fields = entriesLines depth t.members := by
  obtain ⟨e, _ | fs⟩ := t <;> rfl

theorem outlineLines_eq (t : CallTree) :
    outlineLines depth t = (elementBlocks depth t.element ++ membersBlocks depth t.members).flatMap
      (Block.lines depth) := by
  rw [List.flatMap_append, ← elementLines_eq, ← entriesLines_eq, ← fieldsLines_eq]
  obtain ⟨e, fs⟩ := t
  rfl

theorem bodyLines_eq (t : CallTree) :
    bodyLines depth t = (membersBlocks depth t.members ++ elementBlocks depth t.element).flatMap
      (Block.lines depth) := by
  rw [List.flatMap_append, ← elementLines_eq, ← entriesLines_eq, ← fieldsLines_eq, bodyLines]

/-- All blocks of a node are proper, and so are those that it has as a field. -/
theorem proper_blocks (t : CallTree) (hnames : ∀ key ∈ t.keys, IsOutlineName key) :
    ∀ depth, (∀ b ∈ elementBlocks depth t.element ++ membersBlocks depth t.members,
        b.Proper depth) ∧
      ∀ name, IsOutlineName name → ∀ b ∈ memberBlocks depth name t, b.Proper depth := by
  induction t with
  | step t ihElement ihMembers =>
    intro depth
    have hmembers : ∀ depth, ∀ b ∈ membersBlocks depth t.members, b.Proper depth := by
      intro depth b hb
      obtain ⟨entry, hentry, hb⟩ := List.mem_flatMap.mp hb
      have hbelow := ihMembers entry hentry
        (fun key hkey => hnames key (mem_keys_of_member hentry (.inr hkey))) depth
      exact hbelow.2 entry.1 (hnames _ (mem_keys_of_member hentry (.inl rfl))) b hb
    have hfields : ∀ depth, Indented depth (entriesLines depth t.members) := by
      intro depth
      rw [entriesLines_eq]
      exact Block.indented_lines (hmembers depth)
    have helement : ∀ e, t.element = some e → ∀ depth,
        Indented depth (outlineLines depth e) ∧ Indented depth (bodyLines depth e) := by
      intro e he depth
      have hbelow := (ihElement e he
        (fun key hkey => hnames key (mem_keys_of_element he hkey)) depth).1
      rw [outlineLines_eq, bodyLines_eq]
      refine ⟨Block.indented_lines hbelow, Block.indented_lines fun b hb => hbelow b ?_⟩
      exact List.mem_append.mpr (List.mem_append.mp hb).symm
    refine ⟨List.forall_mem_append.mpr ⟨fun b hb => ?_, hmembers depth⟩, fun name hname b hb => ?_⟩
    · cases he : t.element with
      | none => simp [he, elementBlocks] at hb
      | some e =>
        rw [he, elementBlocks, List.mem_singleton] at hb
        subst hb
        refine ⟨fun other hother => ?_, (helement e he _).1⟩
        cases hother
    · have hshown : ∀ {h : Heading}, h.name? = some name → h.Shown :=
        fun hh other hother => Option.some.inj (hh.symm.trans hother) ▸ hname
      obtain ⟨_ | e, _ | fs⟩ := t <;> simp only [memberBlocks, List.mem_cons, List.not_mem_nil,
        or_false] at hb
      · subst hb
        exact ⟨hshown rfl, List.forall_mem_nil _⟩
      · subst hb
        exact ⟨hshown rfl, hfields _⟩
      · subst hb
        exact ⟨hshown rfl, (helement e rfl _).2⟩
      · rcases hb with rfl | rfl
        · exact ⟨hshown rfl, (helement e rfl _).2⟩
        · exact ⟨hshown rfl, hfields _⟩

/-! ## What the blocks tell -/

/-- The blocks that are about one name, or about the elements. -/
def select (name : Option String) (blocks : List Block) : List Block :=
  blocks.filter fun b => b.1.name? = name

/-- The blocks of what lies below a step. -/
def stepBlocks (depth : Nat) : Step → Option CallTree → List Block
  | .element, element => elementBlocks depth element
  | .field _, none => []
  | .field key, some child => memberBlocks depth key child

/-- What the blocks below a step are about. -/
def stepName : Step → Option String
  | .element => none
  | .field key => some key

theorem name?_elementBlocks {element : Option CallTree} :
    ∀ b ∈ elementBlocks depth element, b.1.name? = none := by
  cases element <;> simp [elementBlocks, Heading.name?]

theorem name?_memberBlocks {name : String} {t : CallTree} :
    ∀ b ∈ memberBlocks depth name t, b.1.name? = some name := by
  obtain ⟨_ | e, _ | fs⟩ := t <;> simp [memberBlocks, Heading.name?]

theorem select_memberBlocks (name key : String) (t : CallTree) :
    select (some key) (memberBlocks depth name t) =
      if name = key then memberBlocks depth name t else [] := by
  split
  · next hname =>
    exact List.filter_eq_self.mpr fun b hb => by simp [name?_memberBlocks b hb, hname]
  · next hname =>
    exact List.filter_eq_nil_iff.mpr fun b hb => by simp [name?_memberBlocks b hb, hname]

theorem select_membersBlocks {fs : List (String × CallTree)} (hfs : Keyed.Ordered fs)
    (key : String) :
    select (some key) (membersBlocks depth fs) = stepBlocks depth (.field key) (fs.lookup key) := by
  induction fs with
  | nil => rfl
  | cons entry rest ih =>
    obtain ⟨name, t⟩ := entry
    have hrest := ih hfs.tail
    rw [membersBlocks, List.flatMap_cons, ← membersBlocks, select, List.filter_append, ← select,
      ← select, select_memberBlocks, hrest]
    by_cases hname : name = key
    · subst hname
      rw [if_pos rfl, hfs.lookup_tail, List.lookup_cons, beq_self_eq_true]
      exact List.append_nil _
    · rw [if_neg hname, List.lookup_cons, beq_eq_false_iff_ne.mpr (Ne.symm hname)]
      rfl

theorem select_none_membersBlocks (fs : List (String × CallTree)) :
    select none (membersBlocks depth fs) = [] := by
  refine List.filter_eq_nil_iff.mpr fun b hb => ?_
  obtain ⟨entry, -, hb⟩ := List.mem_flatMap.mp hb
  simp [name?_memberBlocks b hb]

theorem select_elementBlocks (element : Option CallTree) (name : Option String) :
    select name (elementBlocks depth element) =
      if name = none then elementBlocks depth element else [] := by
  split
  · next hname =>
    exact List.filter_eq_self.mpr fun b hb => by simp [name?_elementBlocks b hb, hname]
  · next hname =>
    exact List.filter_eq_nil_iff.mpr fun b hb => by simp [name?_elementBlocks b hb, Ne.symm hname]

/-- **The blocks of a node tell what lies below each step**, elements first. -/
theorem select_outlineBlocks (ht : t.Ordered) (step : Step) :
    select (stepName step) (elementBlocks depth t.element ++ membersBlocks depth t.members) =
      stepBlocks depth step (t.child? step) := by
  rw [select, List.filter_append, ← select, ← select, select_elementBlocks]
  cases step with
  | element =>
    rw [stepName, if_pos rfl, select_none_membersBlocks, List.append_nil]
    rfl
  | field key =>
    rw [stepName, if_neg (Option.some_ne_none key), List.nil_append,
      select_membersBlocks (ordered_iff.mp ht).2.1]
    rfl

/-- The same with the fields first. -/
theorem select_bodyBlocks (ht : t.Ordered) (step : Step) :
    select (stepName step) (membersBlocks depth t.members ++ elementBlocks depth t.element) =
      stepBlocks depth step (t.child? step) := by
  rw [select, List.filter_append, ← select, ← select, select_elementBlocks]
  cases step with
  | element =>
    rw [stepName, if_pos rfl, select_none_membersBlocks, List.nil_append]
    rfl
  | field key =>
    rw [stepName, if_neg (Option.some_ne_none key), List.append_nil,
      select_membersBlocks (ordered_iff.mp ht).2.1]
    rfl

/-- The blocks that a field has as a list and as a record tell the lines of either. -/
theorem memberBlocks_inj {name : String} (h : memberBlocks depth name s = memberBlocks depth name t) :
    s.element.map (bodyLines (depth + 1)) = t.element.map (bodyLines (depth + 1)) ∧
      s.fields.map (entriesLines (depth + 1)) = t.fields.map (entriesLines (depth + 1)) := by
  obtain ⟨_ | e, _ | fs⟩ := s <;> obtain ⟨_ | e', _ | fs'⟩ := t <;>
    simp_all [memberBlocks]

/-! ## Trees -/

/-- The fields are in order, no node is drilled into without one, and lines can show their
names. -/
structure Outlined (t : CallTree) : Prop where
  ordered : t.Ordered
  filled : t.Filled
  named : ∀ key ∈ t.keys, IsOutlineName key

namespace Outlined

theorem child (ht : t.Outlined) (step : Step) {c : CallTree} (hc : t.child? step = some c) :
    c.Outlined := by
  refine ⟨ht.ordered.child hc, (filled_iff.mp ht.filled).2 step c hc, fun key hkey => ?_⟩
  refine ht.named key ?_
  cases step with
  | element => exact mem_keys_of_element hc hkey
  | field name =>
    have hmem := (Keyed.lookup_eq_some_iff_mem (ordered_iff.mp ht.ordered).2.1).mp hc
    exact mem_keys_of_member hmem (.inr hkey)

theorem proper (ht : t.Outlined) (depth : Nat) :
    ∀ b ∈ elementBlocks depth t.element ++ membersBlocks depth t.members, b.Proper depth :=
  (proper_blocks t ht.named depth).1

/-- With the same trees below each step, two such trees are the same: one that has no field is not
drilled into. -/
theorem ext (hs : s.Outlined) (ht : t.Outlined) (h : ∀ step, s.child? step = t.child? step) :
    s = t := by
  refine CallTree.ext hs.ordered ht.ordered ?_ h
  have hmembers : s.members = t.members :=
    Keyed.ext (ordered_iff.mp hs.ordered).2.1 (ordered_iff.mp ht.ordered).2.1
      fun key => h (.field key)
  have hsome : ∀ {u : CallTree}, u.Outlined → (u.fields.isSome = true ↔ u.members ≠ []) := by
    intro u hu
    have hroot := (filled_iff.mp hu.filled).1
    obtain ⟨_, _ | fs⟩ := u
    · simp
    · simpa using hroot
  rw [Bool.eq_iff_iff, hsome hs, hsome ht, hmembers]

end Outlined

/-- The tree is told apart from all others: by its outline, by the lines that it has as the elements
of a field, and by the blocks that it has as a field. -/
structure ToldApart (s : CallTree) : Prop where
  outline : ∀ depth t, t.Outlined → outlineLines depth s = outlineLines depth t → s = t
  body : ∀ depth t, t.Outlined → bodyLines depth s = bodyLines depth t → s = t
  member : ∀ depth name t, t.Outlined → memberBlocks depth name s = memberBlocks depth name t →
    s = t

/-- Below a step lies the same, if what lies there is told apart and the blocks are the same. -/
theorem child?_of_stepBlocks {step : Step}
    (hs : ∀ c, s.child? step = some c → c.ToldApart)
    (ht : ∀ c, t.child? step = some c → c.Outlined)
    (h : stepBlocks depth step (s.child? step) = stepBlocks depth step (t.child? step)) :
    s.child? step = t.child? step := by
  have hne : ∀ {c : CallTree}, stepBlocks depth step (some c) ≠ stepBlocks depth step none := by
    intro c
    cases step with
    | element => simp [stepBlocks, elementBlocks]
    | field key => obtain ⟨_ | e, _ | fs⟩ := c <;> simp [stepBlocks, memberBlocks]
  cases hc : s.child? step with
  | none =>
    cases hd : t.child? step with
    | none => rfl
    | some d =>
      rw [hc, hd] at h
      exact absurd h.symm hne
  | some c =>
    cases hd : t.child? step with
    | none =>
      rw [hc, hd] at h
      exact absurd h hne
    | some d =>
      rw [hc, hd] at h
      have htold := hs c hc
      cases step with
      | element =>
        simp only [stepBlocks, elementBlocks, List.cons.injEq, Prod.mk.injEq, true_and,
          and_true] at h
        rw [htold.outline _ d (ht d hd) h]
      | field key => rw [htold.member _ key d (ht d hd) h]

/-- **Every tree is told apart.** -/
theorem toldApart (s : CallTree) (hs : s.Outlined) : s.ToldApart := by
  induction s using child_induct with
  | step s ih =>
    have hchild : ∀ (depth : Nat) {t : CallTree} {step : Step}, t.Outlined →
        stepBlocks depth step (s.child? step) = stepBlocks depth step (t.child? step) →
        s.child? step = t.child? step := fun depth _ _ ht h =>
      child?_of_stepBlocks (fun c hc => ih _ c hc (hs.child _ hc)) (fun c hc => ht.child _ hc) h
    refine ⟨fun depth t ht h => ?_, fun depth t ht h => ?_, fun depth name t ht h => ?_⟩
    · rw [outlineLines_eq, outlineLines_eq] at h
      have hblocks := Block.blocks_of_lines (hs.proper depth) (ht.proper depth) h
      refine hs.ext ht fun step => hchild depth ht ?_
      rw [← select_outlineBlocks hs.ordered, hblocks, select_outlineBlocks ht.ordered]
    · rw [bodyLines_eq, bodyLines_eq] at h
      have hblocks := Block.blocks_of_lines
        (fun b hb => hs.proper depth b (List.mem_append.mpr (List.mem_append.mp hb).symm))
        (fun b hb => ht.proper depth b (List.mem_append.mpr (List.mem_append.mp hb).symm)) h
      refine hs.ext ht fun step => hchild depth ht ?_
      rw [← select_bodyBlocks hs.ordered, hblocks, select_bodyBlocks ht.ordered]
    · obtain ⟨hbody, hfields⟩ := memberBlocks_inj h
      refine hs.ext ht fun step => ?_
      cases step with
      | element =>
        rw [child?_element, child?_element]
        cases hc : s.element with
        | none => simpa [hc, eq_comm] using hbody
        | some c =>
          obtain ⟨d, hd, hlines⟩ : ∃ d, t.element = some d ∧
              bodyLines (depth + 1) d = bodyLines (depth + 1) c := by
            simpa [hc] using hbody.symm
          have htold := ih .element c hc (hs.child .element hc)
          rw [hd, htold.body _ d (ht.child .element hd) hlines.symm]
      | field key =>
        have hlines : entriesLines (depth + 1) s.members = entriesLines (depth + 1) t.members := by
          rw [members, members]
          cases hc : s.fields <;> cases hd : t.fields <;> simp_all
        rw [entriesLines_eq, entriesLines_eq] at hlines
        have hblocks := Block.blocks_of_lines
          (fun b hb => hs.proper _ b (List.mem_append_right _ hb))
          (fun b hb => ht.proper _ b (List.mem_append_right _ hb)) hlines
        refine hchild (depth + 1) ht ?_
        rw [child?_field, child?_field, ← select_membersBlocks (ordered_iff.mp hs.ordered).2.1,
          hblocks, select_membersBlocks (ordered_iff.mp ht.ordered).2.1]

/-- **The outline of a tree tells the tree.** Two trees in which no node is drilled into without a
field, and whose names are not empty and have neither line feeds nor colons nor opening brackets,
have one outline only if they are equal: no use as a list or as a record is lost, no lists in lists,
and no conflict between the two uses. -/
theorem outline_eq_iff {s t : CallTree} (hs : s.Outlined) (ht : t.Outlined) :
    s.outline = t.outline ↔ s = t := by
  refine ⟨fun h => ?_, fun h => h ▸ rfl⟩
  have hindented : ∀ {u : CallTree}, u.Outlined → Indented 0 (outlineLines 0 u) := by
    intro u hu
    rw [outlineLines_eq]
    exact Block.indented_lines (hu.proper 0)
  exact (toldApart s hs).outline 0 t ht (lines_of_render (hindented hs) (hindented ht) h)

/-- A field that is a list of lists and a record, and one that is a list both of records and of lists:
the outlines differ in which line lies below which. -/
theorem outline_eq_iff_items :
    let outer : CallTree := empty.under [.field "items", .field "count"]
    let s := (empty.under [.field "items", .element, .element, .field "name"]).merge outer
    let t := ((empty.under [.field "items", .element, .field "name"]).merge
      (empty.under [.field "items", .element, .element])).merge outer
    s.Outlined ∧ t.Outlined ∧ s.outline ≠ t.outline := by
  intro outer s t
  have hpath : ∀ path : List Step, (empty.under path).Ordered ∧ (empty.under path).Filled :=
    fun path => ⟨ordered_under ordered_empty path, filled_under filled_empty path⟩
  have hunion : ∀ {u v : CallTree}, u.Ordered ∧ u.Filled → v.Ordered ∧ v.Filled →
      (u.merge v).Ordered ∧ (u.merge v).Filled :=
    fun {u v} hu hv => ⟨ordered_merge v u hu.1 hv.1, filled_merge hu.1 hv.1 hu.2 hv.2⟩
  obtain ⟨hsOrdered, hsFilled⟩ : s.Ordered ∧ s.Filled := hunion (hpath _) (hpath _)
  obtain ⟨htOrdered, htFilled⟩ : t.Ordered ∧ t.Filled :=
    hunion (hunion (hpath _) (hpath _)) (hpath _)
  have hs : s.Outlined := ⟨hsOrdered, hsFilled, by decide +kernel⟩
  have ht : t.Outlined := ⟨htOrdered, htFilled, by decide +kernel⟩
  -- only the second tree has a name below one step to the elements
  have hread : (s.get? [.field "items", .element, .field "name"]).isSome ≠
      (t.get? [.field "items", .element, .field "name"]).isSome := by decide +kernel
  exact ⟨hs, ht, fun h => hread (by rw [(outline_eq_iff hs ht).mp h])⟩

end CallTree

end Fieldwise
