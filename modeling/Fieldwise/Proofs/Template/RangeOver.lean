import Fieldwise.Proofs.Template.Enclosed
import Fieldwise.Proofs.Template.Field
import Fieldwise.Proofs.Template.Stretches

/-!
# The source of a range over a field

* `rangeOver` : a range over a field whose body is a source of its own.
* `Scan.readAction_fields` : fields one behind the other are read as one token each.
* `Scan.not_readSegments_brace` : where a source ends with a lone brace, nothing that begins with
  braces can stand behind it.
* `Scan.core_rangeOver` : but for text and places, the range holds the action that opens it, the
  actions of its body, and its end.
-/

set_option autoImplicit false

namespace Fieldwise

/-- The fields with the given names, one behind the other. -/
def dotted (names : List String) : String :=
  String.join (names.map ("." ++ ·))

/-- The source of a range over a field, with a body. -/
def rangeOver (names : List String) (body : String) : String :=
  "\x7b\x7brange " ++ dotted names ++ "\x7d\x7d" ++ body ++ "\x7b\x7bend\x7d\x7d"

/-- The tokens of fields that stand one behind the other, without their places. The flag tells
whether space stands before the first. -/
def fieldTokens (space : Bool) : List String → List Token
  | [] => []
  | name :: rest => ⟨.field name, .start, space⟩ :: fieldTokens false rest

theorem toList_dotted_cons (name : String) (rest : List String) :
    (dotted (name :: rest)).toList = '.' :: (name.toList ++ (dotted rest).toList) := by
  simp [dotted, String.toList_join]

theorem isFields_fieldTokens : ∀ names : List String, Grammar.IsFields (fieldTokens false names) names
  | [] => .nil
  | _ :: rest => .cons (isFields_fieldTokens rest)

/-- A pipeline that is nothing but a field. -/
theorem isPipeline_fieldTokens (context : Context) (d : Nat) (Γ : Scope) (space : Bool)
    {names : List String} (hne : names ≠ []) :
    Grammar.IsPipeline context d Γ (fieldTokens space names)
      ⟨.start, false, [], [⟨.start, [.field .start names]⟩]⟩ Γ := by
  obtain ⟨name, rest, rfl⟩ := List.exists_cons_of_ne_nil hne
  have hattached : Grammar.Attached (.field .start [name]) rest (.field .start (name :: rest)) := by
    cases rest with
    | nil => exact .bare _
    | cons => exact .field (List.cons_ne_nil _ _)
  have hoperand : Grammar.IsOperand d Γ (fieldTokens space (name :: rest))
      (.field .start (name :: rest)) Γ := .mk (.atom .field) (isFields_fieldTokens rest) hattached
  exact .mk .none (.one (.one hoperand) rfl) rfl

namespace Scan

/-! ## The action that opens the range -/

/-- **Fields one behind the other are read as one token each**, up to the right delimiter. -/
theorem readAction_fields (opened : Pos) (rest : List Char) : ∀ {names : List String},
    (∀ name ∈ names, IsFieldName name) → ∀ (pos : Pos) (space : Bool),
    ∃ body, readAction opened pos space ((dotted names).toList ++ '\x7d' :: '\x7d' :: rest) = .ok body ∧
      body.tokens.map Token.core = fieldTokens space names ∧ body.close.kind = .rightDelim ∧
      body.closing.trims = false ∧ body.closing.rest = rest
  | [], _, pos, space => by
    refine ⟨⟨[], ⟨.rightDelim, pos, space⟩, false, pos.afterAll ['\x7d', '\x7d'], rest⟩, ?_, rfl, rfl,
      rfl, rfl⟩
    show readAction opened pos space ('\x7d' :: '\x7d' :: rest) = _
    have hspace : isSpace '\x7d' = false := by decide
    have htrims : closesTrimming ('\x7d' :: '\x7d' :: rest) = false := rfl
    rw [readAction_cons, hspace, htrims, Bool.and_false]
    rfl
  | name :: names, hnames, pos, space => by
    obtain ⟨hname, hnames⟩ := List.forall_mem_cons.mp hnames
    obtain ⟨body, hread, htokens, hclose, htrims, hleft⟩ :=
      readAction_fields opened rest hnames (pos.afterAll ('.' :: name.toList)) false
    -- behind the name stands the dot of the next one, or the right delimiter
    have hnext : ((dotted names).toList ++ '\x7d' :: '\x7d' :: rest).head?.any isWordChar = false := by
      cases names with
      | nil => rfl
      | cons => rw [toList_dotted_cons]; rfl
    refine ⟨{ body with tokens := ⟨.field name, pos, space⟩ :: body.tokens }, ?_, ?_, hclose, htrims,
      hleft⟩
    · rw [toList_dotted_cons, List.cons_append, List.append_assoc, readAction_field hname hnext, hread]
    · rw [List.map_cons, htokens]
      simp [fieldTokens, Token.core]

/-- The action that opens a range over a field, without places. -/
def rangeAction (names : List String) : Action :=
  ⟨.start, ⟨.keyword .rangeWord, .start, false⟩ :: fieldTokens true names, ⟨.rightDelim, .start, false⟩⟩

/-- The keyword, space, and what is read behind it. -/
theorem readAction_range (opened pos : Pos) (cs : List Char) :
    readAction opened pos false ('r' :: 'a' :: 'n' :: 'g' :: 'e' :: ' ' :: cs) =
      match readAction opened ((pos.afterAll ['r', 'a', 'n', 'g', 'e']).after ' ') true cs with
      | .error e => .error e
      | .ok body => .ok { body with tokens := ⟨.keyword .rangeWord, pos, false⟩ :: body.tokens } := by
  have hword : isSpace 'r' = false := by decide
  have hspace : isSpace ' ' = true := by decide
  have hcloses : closes ('r' :: 'a' :: 'n' :: 'g' :: 'e' :: ' ' :: cs) = false := rfl
  have hscan : Lexeme.scan 'r' ('a' :: 'n' :: 'g' :: 'e' :: ' ' :: cs) =
      .ok ⟨.keyword .rangeWord, ['r', 'a', 'n', 'g', 'e'], ' ' :: cs⟩ := rfl
  have hread := readAction_cons opened pos false 'r' ('a' :: 'n' :: 'g' :: 'e' :: ' ' :: cs)
  rw [hword, hcloses, hscan, Bool.false_and] at hread
  simp only [Bool.false_eq_true, if_false] at hread
  rw [readAction_cons opened _ false ' ', hspace, if_pos rfl] at hread
  exact hread

/-- The left delimiter and what stands behind it, up to the right one, are read as one action. -/
theorem readBraces_range {names : List String} (hnames : ∀ name ∈ names, IsFieldName name)
    (opened : Pos) (rest : List Char) :
    ∃ action closing, readBraces opened ("\x7b\x7brange ".toList ++ ((dotted names).toList ++
        '\x7d' :: '\x7d' :: rest)) = .ok (some action, closing) ∧
      action.core = rangeAction names ∧ closing.trims = false ∧ closing.rest = rest := by
  let pos := opened.afterAll ['\x7b', '\x7b']
  obtain ⟨body, hread, htokens, hclose, htrims, hleft⟩ :=
    readAction_fields opened rest hnames ((pos.afterAll ['r', 'a', 'n', 'g', 'e']).after ' ') true
  have hbraces : readBraces opened ("\x7b\x7brange ".toList ++ ((dotted names).toList ++
      '\x7d' :: '\x7d' :: rest)) =
        match readAction opened pos false ('r' :: 'a' :: 'n' :: 'g' :: 'e' :: ' ' ::
          ((dotted names).toList ++ '\x7d' :: '\x7d' :: rest)) with
        | .error e => .error e
        | .ok body => .ok (some ⟨opened, body.tokens, body.close⟩, body.closing) := rfl
  rw [hbraces, readAction_range, hread]
  refine ⟨_, _, rfl, ?_, htrims, hleft⟩
  simp [Action.core, rangeAction, htokens, Token.core, hclose]

/-! ## The seam behind the body -/

/-- A block ends with a brace. -/
theorem getLast?_of_isBlock {b : List Char} (h : IsBlock b) : b.getLast? = some '\x7d' := by
  rcases h with ⟨hinside, -⟩ | ⟨-, -, -⟩
  · obtain ⟨front, rfl⟩ := hinside.exists_append
    simp [List.getLast?_cons]
  · simp [List.getLast?_cons]

/-- The source of an end. -/
def endSource : List Char :=
  "\x7b\x7bend\x7d\x7d".toList

/-- Behind a text that ends with a brace, a left delimiter begins one character early. -/
theorem splitText_brace {front : List Char} (rest : List Char)
    (h : (splitText (front ++ ['\x7b'])).2 = []) :
    splitText (front ++ '\x7b' :: '\x7b' :: rest) = (front, '\x7b' :: '\x7b' :: rest) := by
  induction front with
  | nil => rfl
  | cons c front ih =>
    have hmark : ¬ (c = '\x7b' ∧ (front ++ ['\x7b']).head? = some '\x7b') := by
      rintro ⟨rfl, hhead⟩
      obtain ⟨tail, htail⟩ := List.head?_eq_some_iff.mp hhead
      rw [List.cons_append, htail] at h
      cases h
    have hmark' : ¬ (c = '\x7b' ∧ (front ++ '\x7b' :: '\x7b' :: rest).head? = some '\x7b') := by
      cases front <;> exact hmark
    rw [List.cons_append, splitText_cons hmark] at h
    rw [List.cons_append, splitText_cons hmark', ih h]

theorem readBraces_brace (opened : Pos) :
    readBraces opened ('\x7b' :: endSource) =
      .error ⟨opened.afterAll ['\x7b', '\x7b'], .unknownCharacter '\x7b'⟩ := by
  have hbraces : readBraces opened ('\x7b' :: endSource) =
      match readAction opened (opened.afterAll ['\x7b', '\x7b']) false "\x7bend\x7d\x7d".toList with
      | .error e => .error e
      | .ok body => .ok (some ⟨opened, body.tokens, body.close⟩, body.closing) := rfl
  have hread (pos : Pos) : readAction opened pos false "\x7bend\x7d\x7d".toList =
      .error ⟨pos, .unknownCharacter '\x7b'⟩ := by
    rw [show "\x7bend\x7d\x7d".toList = '\x7b' :: "end\x7d\x7d".toList from rfl, readAction_cons]
    rfl
  rw [hbraces, hread]

/-- **Behind a source that ends with a brace no end can stand**: the action would begin with a brace,
and no lexeme does. -/
theorem not_readSegments_brace {cs : List Char} {pos : Pos} {trims : Bool} {scan : Scan}
    (h : readSegments pos trims cs = .ok scan) (hlast : cs.getLast? = some '\x7b') :
    ∀ (pos' : Pos) (u : Scan), readSegments pos' trims (cs ++ endSource) ≠ .ok u := by
  induction h using readSegments_induction with
  | finish pos trims cs hnil _ =>
    intro pos' u hu
    obtain ⟨front, rfl⟩ := List.getLast?_eq_some_iff.mp hlast
    have hsplit : splitText (front ++ ['\x7b'] ++ endSource) = (front, '\x7b' :: endSource) := by
      rw [List.append_assoc]
      exact splitText_brace _ hnil
    rw [readSegments_of_ne_nil (by rw [hsplit]; exact List.cons_ne_nil _ _), hsplit,
      readBraces_brace] at hu
    cases hu
  | braces pos trims cs action closing scan hne hbraces hrest _ ih =>
    intro pos' u hu
    obtain ⟨-, rest, hrest'⟩ := exists_upTo_of_splitText hne
    have hblock := hbraces
    rw [hrest'] at hblock
    obtain ⟨block, hchars, hisBlock, -⟩ := exists_block_of_readBraces hblock
    have hcs : cs = (splitText cs).1 ++ (block ++ closing.rest) := by
      rw [← hchars]
      conv => lhs; rw [← splitText_append cs, hrest']
      rfl
    -- the block ends with a right delimiter, so that the brace is behind it
    have hlast' : closing.rest.getLast? = some '\x7b' := by
      rw [hcs, List.getLast?_append, List.getLast?_append, getLast?_of_isBlock hisBlock] at hlast
      cases hleft : closing.rest.getLast? with
      | none => rw [hleft] at hlast; cases hlast
      | some c => rw [hleft] at hlast; exact hlast
    obtain ⟨action', closing', hbraces', -, htrims, hleft⟩ :=
      readBraces_followed hbraces (pos'.afterAll (splitText cs).1) endSource
    have hsplit := splitText_followed hne endSource
    rw [readSegments_of_ne_nil (by rw [hsplit]; exact List.append_ne_nil_of_left_ne_nil hne _),
      hsplit, hbraces'] at hu
    dsimp only at hu
    rw [htrims, hleft] at hu
    cases hread : readSegments closing'.pos closing.trims (closing.rest ++ endSource) with
    | error e => rw [hread] at hu; cases hu
    | ok v => exact ih hlast' _ v hread

/-! ## The actions of the range -/

/-- The tokens that are no text, as far as reading depends on them. -/
def coreTokens (ts : List Token) : List Token :=
  (ts.filter fun t => !t.isText).map Token.core

theorem coreTokens_append (ts us : List Token) :
    coreTokens (ts ++ us) = coreTokens ts ++ coreTokens us := by
  simp [coreTokens]

theorem coreTokens_of_alike {us ts : List Token} (h : Grammar.Alike us ts) :
    coreTokens us = coreTokens ts := by
  have hcore (ts : List Token) : coreTokens ts = coreTokens (ts.map Token.bare) := by
    simp only [coreTokens, List.filter_map, List.map_map]
    rfl
  rw [hcore us, hcore ts, h]

theorem coreTokens_of_allText {ts : List Token} (h : AllText ts) : coreTokens ts = [] := by
  rw [coreTokens, List.filter_eq_nil_iff.mpr, List.map_nil]
  intro t ht
  obtain ⟨s, hs⟩ := h t ht
  simp [Token.isText, hs]

theorem coreTokens_content {scan : Scan} (hwf : ∀ s ∈ scan.segments, s.WellFormed) :
    coreTokens scan.content = scan.core.content := by
  have h := tokens_core scan hwf
  rw [tokens_eq_content, tokensWithoutText, tokens_eq_content, List.filter_append,
    List.map_append] at h
  exact (List.append_inj_left' h rfl).symm

/-- Two sources of which the one behind the other is read have the actions of both. -/
theorem Joins.core_segments {a b c : Scan} (h : Joins a.content b.content c.content)
    (ha : ∀ s ∈ a.segments, s.WellFormed) (hb : ∀ s ∈ b.segments, s.WellFormed)
    (hc : ∀ s ∈ c.segments, s.WellFormed) :
    c.core.segments = a.core.segments ++ b.core.segments := by
  have hcontent : c.core.content = a.core.content ++ b.core.content := by
    rw [← coreTokens_content ha, ← coreTokens_content hb, ← coreTokens_content hc]
    obtain ⟨hs, ht, hu, hfront, hback, hbefore, hbetween, hafter⟩ := h
    rw [hs, ht, hu]
    simp only [coreTokens_append, coreTokens_of_alike hfront, coreTokens_of_alike hback,
      coreTokens_of_allText hbefore, coreTokens_of_allText hbetween, coreTokens_of_allText hafter,
      List.append_nil, List.nil_append]
  have hboth : Spells .start (a.core.segments ++ b.core.segments) c.core.tokens := by
    refine ⟨List.forall_mem_append.mpr ⟨wellFormed_core ha, wellFormed_core hb⟩, ?_⟩
    rw [tokens_eq_content, tokens_eq_content c.core, hcontent]
    simp only [content, List.flatMap_append]
    rfl
  exact hboth.unique ⟨wellFormed_core hc, rfl⟩

/-- The action that ends the range, without places. -/
def endAction : Action :=
  ⟨.start, [⟨.keyword .endWord, .start, false⟩], ⟨.rightDelim, .start, false⟩⟩

theorem toList_rangeOver (names : List String) (body : String) :
    (rangeOver names body).toList = "\x7b\x7brange ".toList ++ ((dotted names).toList ++
      '\x7d' :: '\x7d' :: (body.toList ++ endSource)) := by
  simp only [rangeOver, String.toList_append, List.append_assoc]
  rfl

/-- **But for text and places, a range holds the action that opens it, the actions of its body, and
its end.** -/
theorem core_rangeOver {names : List String} {body : String} {s r : Scan}
    (hnames : ∀ name ∈ names, IsFieldName name) (hs : ofSource body = .ok s)
    (hr : ofSource (rangeOver names body) = .ok r) :
    r.core = ⟨.action (rangeAction names) :: (s.core.segments ++ [.action endAction]), .start⟩ := by
  have hwf := wellFormed_of_ofSource hr
  obtain ⟨action, closing, hbraces, hcore, htrims, hleft⟩ :=
    readBraces_range hnames .start (body.toList ++ endSource)
  rw [← toList_rangeOver] at hbraces
  have hsplit : splitText (rangeOver names body).toList = ([], (rangeOver names body).toList) := by
    rw [toList_rangeOver]
    rfl
  have hne : (splitText (rangeOver names body).toList).2 ≠ [] := by
    rw [hsplit, toList_rangeOver]
    exact List.cons_ne_nil _ _
  rw [ofSource, readSegments_of_ne_nil hne, hsplit, Pos.afterAll_nil, hbraces] at hr
  dsimp only at hr
  rw [htrims, hleft] at hr
  cases hrest : readSegments closing.pos false (body.toList ++ endSource) with
  | error e => rw [hrest] at hr; cases hr
  | ok rest =>
    rw [hrest] at hr
    obtain rfl := Except.ok.inj hr
    have hseam : ¬ OpensAcross body.toList endSource :=
      fun hacross => not_readSegments_brace hs hacross.1 _ _ hrest
    have hend : readSegments .start false endSource = .ok ⟨[.action ⟨.start,
        [⟨.keyword .endWord, ⟨1, 3⟩, false⟩], ⟨.rightDelim, ⟨1, 6⟩, false⟩⟩], ⟨1, 8⟩⟩ := by
      decide +kernel
    obtain ⟨u, hu, hjoins⟩ := readSegments_append hs hend hseam closing.pos
    cases hrest.symm.trans hu
    have hsegments := hjoins.core_segments (wellFormed_of_ofSource hs)
      (wellFormed_of_readSegments hend) (wellFormed_of_readSegments hrest)
    have hopens : opensTrimming (rangeOver names body).toList = false := by
      rw [toList_rangeOver]
      rfl
    rw [hopens]
    show Scan.mk (.action action.core :: rest.core.segments) .start = _
    rw [hcore, hsegments]
    rfl

end Scan

end Fieldwise
