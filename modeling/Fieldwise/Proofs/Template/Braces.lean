import Fieldwise.Proofs.Template.Blocks
import Mathlib.Data.List.Basic
import Mathlib.Data.List.TakeWhile

/-!
# Reading an action or a comment takes a block

* `Lexeme.isWritten_scan` : a lexeme is a quotation, or it holds neither space nor a character that
  means something to the delimiters, and is no lone hyphen.
* `Scan.endsTrimming` : a block that ends with space and a right delimiter with a trim marker.
* `Scan.exists_inside_of_readAction`, `Scan.exists_comment_of_readComment` : what is read of an
  action and of a comment, and that the text behind them is trimmed if they end so.
* `Scan.exists_block_of_readBraces` : what is read behind a left delimiter, this included, is a
  block.
-/

set_option autoImplicit false

namespace Fieldwise

open Block

/-! ## The characters of a lexeme -/

namespace Lexeme

variable {c : Char} {cs chars used rest value values : List Char} {l : Lexeme}

theorem isHexDigit_of_takeHex {count high code : Nat}
    (h : takeHex count high cs = some (code, used, rest)) : ∀ d ∈ used, isHexDigit d = true := by
  fun_induction takeHex count high cs generalizing code used rest with
  | case1 => cases h; simp
  | case2 => cases h
  | case3 => cases h
  | case4 => cases h
  | case5 _ _ _ _ _ hdigit _ _ _ hrest ih =>
    cases h
    exact List.forall_mem_cons.mpr ⟨by rw [isHexDigit, hdigit]; rfl, ih hrest⟩

/-- Behind a backslash stands a character that it hides, and perhaps hexadecimal digits. -/
theorem exists_cons_of_scanEscape (h : scanEscape cs = .ok (c, used, rest)) :
    ∃ d digits, used = d :: digits ∧ ∀ e ∈ digits, isHexDigit e = true := by
  unfold scanEscape at h
  split at h
  · cases h
  split at h
  · cases h
    exact ⟨_, [], rfl, by simp⟩
  split at h
  · cases h
  split at h
  · cases h
  next hhex =>
  split at h
  · cases h
    exact ⟨_, _, rfl, isHexDigit_of_takeHex hhex⟩
  · cases h

theorem isQuoted_of_scanString (h : scanString cs = .ok (values, chars, rest)) :
    IsQuoted '"' chars := by
  fun_induction scanString cs generalizing values chars rest with
  | case1 => cases h
  | case2 => cases h
  | case3 => cases h; exact .close
  | case4 => cases h
  | case5 => cases h
  | case6 _ _ used _ hescape _ _ _ _ hrest _ _ ih =>
    cases h
    obtain ⟨d, digits, rfl, hdigits⟩ := exists_cons_of_scanEscape hescape
    refine .escape d (IsQuoted.append (fun e he => ?_) (ih hrest))
    have hhex := hdigits e he
    constructor
    · rintro rfl
      exact absurd hhex (by decide)
    · rintro rfl
      exact absurd hhex (by decide)
  | case7 => cases h
  | case8 _ _ _ hquote hescape _ _ _ hrest ih =>
    cases h
    exact .plain _ hquote hescape (ih hrest)

theorem notMem_of_scanRaw (h : scanRaw cs = .ok (value, rest)) : '\x60' ∉ value := by
  fun_induction scanRaw cs generalizing value rest with
  | case1 => cases h
  | case2 => cases h; simp
  | case3 => cases h
  | case4 _ _ hquote _ _ hrest ih =>
    cases h
    exact List.not_mem_cons_of_ne_of_not_mem (Ne.symm hquote) (ih hrest)

theorem isQuoted_of_scanCharacter (h : scanCharacter cs = .ok (chars, rest)) :
    IsQuoted '\'' chars := by
  fun_induction scanCharacter cs generalizing chars rest with
  | case1 => cases h
  | case2 => cases h
  | case3 _ _ _ _ hrest ih => cases h; exact .escape _ (ih hrest)
  | case4 => cases h
  | case5 => cases h; exact .close
  | case6 => cases h
  | case7 c tail hescape _ hquote _ _ hrest ih =>
    cases h
    refine .plain c hquote ?_ (ih hrest)
    -- a backslash hides the character behind it, and there is one
    rintro rfl
    cases tail with
    | nil => cases hrest
    | cons d tail => exact hescape d tail rfl rfl

/-- A character that takes no part in quotations, in right delimiters and in space. -/
def isBare (c : Char) : Bool :=
  !(isQuoteMark c || c = '\x7d' || isSpace c)

theorem isBare_iff :
    isBare c = true ↔ isQuoteMark c = false ∧ c ≠ '\x7d' ∧ isSpace c = false := by
  simp [isBare, and_assoc]

/-- The property is one of bare characters. -/
def BareOnly (p : Char → Bool) : Prop :=
  ∀ c, p c = true → isBare c = true

theorem bareOnly_of {p : Char → Bool}
    (hp : ['"', '\'', '\x60', '\x7d', ' ', '\t', '\r', '\n'].any p = false) : BareOnly p := by
  intro c hc
  have hmem : c ∉ ['"', '\'', '\x60', '\x7d', ' ', '\t', '\r', '\n'] := fun hmem =>
    List.any_eq_false.mp hp c hmem hc
  simpa [isBare, isQuoteMark, isSpace, and_assoc] using hmem

theorem bareOnly_isWordChar : BareOnly isWordChar :=
  bareOnly_of (by decide +kernel)

/-- The splitter takes bare characters only. -/
def TakesBare (f : List Char → List Char × List Char) : Prop :=
  ∀ cs, ∀ c ∈ (f cs).1, isBare c = true

section Splitters

variable {f g : List Char → List Char × List Char} {p : Char → Bool}

theorem takesBare_takeOne (hp : BareOnly p) : TakesBare (takeOne p) := by
  intro cs c hc
  cases cs with
  | nil => cases hc
  | cons d cs =>
    rw [takeOne] at hc
    split at hc
    · next hd =>
      rw [List.mem_singleton.mp hc]
      exact hp d hd
    · cases hc

theorem takesBare_takeMany (hp : BareOnly p) : TakesBare (takeMany p) :=
  fun _ c hc => hp c (List.mem_takeWhile_imp hc)

theorem TakesBare.both (hf : TakesBare f) (hg : TakesBare g) : TakesBare (takeBoth f g) :=
  fun cs => List.forall_mem_append.mpr ⟨hf cs, hg _⟩

theorem TakesBare.ifAny (hf : TakesBare f) (hg : TakesBare g) : TakesBare (takeIfAny f g) := by
  intro cs c hc
  unfold takeIfAny at hc
  split at hc
  · cases hc
  · next heq =>
    have hfirst := hf cs
    rw [heq] at hfirst
    exact List.forall_mem_append.mpr ⟨hfirst, hg _⟩ c hc

theorem takesBare_takeDecimal : TakesBare takeDecimal :=
  (takesBare_takeMany (bareOnly_of (by decide))).both <|
    ((takesBare_takeOne (bareOnly_of (by decide))).ifAny
      (takesBare_takeMany (bareOnly_of (by decide)))).both <|
      (takesBare_takeOne (bareOnly_of (by decide))).ifAny
        ((takesBare_takeOne (bareOnly_of (by decide))).both
          (takesBare_takeMany (bareOnly_of (by decide))))

theorem takesBare_takeMagnitude : TakesBare takeMagnitude := by
  intro cs
  unfold takeMagnitude
  split
  · next mark tail =>
    split
    · next hmark =>
      have hdigits : ∀ c ∈ (takeMany (fun c => c = '_' || isHexDigit c) tail).1, isBare c = true :=
        takesBare_takeMany (bareOnly_of (by decide)) tail
      exact List.forall_mem_cons.mpr ⟨rfl, List.forall_mem_cons.mpr
        ⟨bareOnly_of (p := isBaseMark) (by decide) mark hmark, hdigits⟩⟩
    · exact takesBare_takeDecimal _
  · exact takesBare_takeDecimal _

theorem takesBare_takeNumber : TakesBare takeNumber :=
  (takesBare_takeOne (bareOnly_of (by decide))).both
    (takesBare_takeMagnitude.both (takesBare_takeOne (bareOnly_of (by decide))))

end Splitters

/-- The characters of a lexeme: a quotation, or bare characters that are more than a hyphen. -/
inductive IsWritten (cs : List Char) : Prop
  | bare (hbare : ∀ c ∈ cs, isBare c = true) (hne : cs ≠ []) (hhyphen : cs ≠ ['-'])
  | quotation (h : IsQuotation cs)

theorem isWritten_cons (hc : isBare c = true) (hhyphen : c ≠ '-')
    (hcs : ∀ d ∈ cs, isBare d = true) : IsWritten (c :: cs) :=
  .bare (List.forall_mem_cons.mpr ⟨hc, hcs⟩) (List.cons_ne_nil c cs) fun h =>
    hhyphen (List.cons.inj h).1

theorem isWritten_of_scanNumber (h : scanNumber cs = .ok l) : IsWritten l.chars := by
  simp only [scanNumber] at h
  split at h
  · next hdigit =>
    cases h
    refine .bare (takesBare_takeNumber cs) ?_ ?_
    · intro (hnil : (takeNumber cs).1 = [])
      rw [hnil] at hdigit
      cases hdigit
    · intro (hhyphen : (takeNumber cs).1 = ['-'])
      rw [hhyphen] at hdigit
      cases hdigit
  · cases h

theorem isWritten_of_scanDot (h : scanDot '.' cs = .ok l) : IsWritten l.chars := by
  unfold scanDot at h
  split at h
  · exact isWritten_of_scanNumber h
  split at h
  · cases h
    exact isWritten_cons rfl (by decide) fun d hd =>
      bareOnly_isWordChar d (List.mem_takeWhile_imp hd)
  · cases h
    exact isWritten_cons rfl (by decide) (by simp)

/-- The characters that announce what a lexeme is. -/
def Start.Announced (c : Char) : Start → Prop
  | .mark _ => isBare c = true ∧ c ≠ '-'
  | .colon => c = ':'
  | .quote => c = '"'
  | .backquote => c = '\x60'
  | .apostrophe => c = '\''
  | .dollar => c = '$'
  | .dot => c = '.'
  | .word => isWordChar c = true
  | .number => True
  | .unknown => True

theorem Start.announced_of (c : Char) : (Start.of c).Announced c := by
  fun_cases Start.of c
  all_goals first
    | assumption
    | trivial
    | exact ⟨by subst c; rfl, by subst c; decide⟩
    | simp_all [Announced, isWordChar]

/-- **What a lexeme is written as.** -/
theorem isWritten_scan (h : scan c cs = .ok l) : IsWritten l.chars := by
  have hstart := Start.announced_of c
  unfold scan at h
  generalize Start.of c = start at h hstart
  cases start with
  | mark kind =>
    cases h
    exact isWritten_cons hstart.1 hstart.2 (by simp)
  | colon =>
    cases hstart
    dsimp only [scanDeclare] at h
    split at h
    · cases h
      exact isWritten_cons rfl (by decide) (List.forall_mem_singleton.mpr rfl)
    · cases h
  | quote =>
    cases hstart
    dsimp only at h
    split at h
    · cases h
    · next hs =>
      cases h
      exact .quotation (.escaping (.inl rfl) (isQuoted_of_scanString hs))
  | backquote =>
    cases hstart
    dsimp only at h
    split at h
    · cases h
    · next hs =>
      cases h
      exact .quotation (.raw (notMem_of_scanRaw hs))
  | apostrophe =>
    cases hstart
    dsimp only at h
    split at h
    · cases h
    · next hs =>
      cases h
      exact .quotation (.escaping (.inr rfl) (isQuoted_of_scanCharacter hs))
  | dollar =>
    cases hstart
    cases h
    exact isWritten_cons rfl (by decide) fun d hd =>
      bareOnly_isWordChar d (List.mem_takeWhile_imp hd)
  | dot =>
    cases hstart
    exact isWritten_of_scanDot h
  | number => exact isWritten_of_scanNumber h
  | word =>
    have hword : isWordChar c = true := hstart
    cases h
    refine isWritten_cons (bareOnly_isWordChar c hword) ?_ fun d hd =>
      bareOnly_isWordChar d (List.mem_takeWhile_imp hd)
    rintro rfl
    exact absurd hword (by decide +kernel)
  | unknown => cases h

end Lexeme

/-! ## Trim markers at the end of a block -/

namespace Scan

/-- A block that ends with a right delimiter with a trim marker. -/
def endsTrimming (block : List Char) : Bool :=
  match block.reverse with
  | '\x7d' :: '\x7d' :: '-' :: c :: _ => isSpace c
  | _ => false

/-- The last character is space. -/
def endsInSpace (cs : List Char) : Bool :=
  cs.getLast?.any isSpace

/-- The last character is a hyphen behind space. -/
def endsInMarker (cs : List Char) : Bool :=
  match cs.reverse with
  | '-' :: c :: _ => isSpace c
  | _ => false

variable {cs front w chars inside rest : List Char} {c : Char} {opened pos : Pos}
  {space : Bool} {body : Body} {closing : Closing}

theorem endsInSpace_concat (cs : List Char) (c : Char) : endsInSpace (cs ++ [c]) = isSpace c := by
  rw [endsInSpace, List.getLast?_concat, Option.any_some]

theorem endsInMarker_concat (cs : List Char) (c : Char) :
    endsInMarker (cs ++ [c]) = (decide (c = '-') && endsInSpace cs) := by
  rw [endsInMarker, List.reverse_concat, endsInSpace, List.getLast?_eq_head?_reverse]
  generalize cs.reverse = back
  split
  · next heq =>
    cases heq
    simp
  · next hne =>
    cases back with
    | nil => simp
    | cons d back =>
      have hc : c ≠ '-' := fun hc => hne d back (by rw [hc])
      simp [hc]

theorem endsTrimming_append (cs : List Char) :
    endsTrimming (cs ++ ['\x7d', '\x7d']) = endsInMarker cs := by
  rw [endsTrimming, endsInMarker, List.reverse_append]
  generalize cs.reverse = back
  rcases back with _ | ⟨c, _ | ⟨d, back⟩⟩
  · rfl
  · simp
  · by_cases hc : c = '-'
    · subst hc
      rfl
    · simp [hc]

/-- What stands before a place inside an action: whether space does, and no loose hyphen. -/
structure Precedes (front : List Char) (space : Bool) : Prop where
  space : endsInSpace front = space
  marker : endsInMarker front = false

theorem Precedes.concat (hc : c ≠ '-') (front : List Char) :
    Precedes (front ++ [c]) (isSpace c) where
  space := endsInSpace_concat front c
  marker := by rw [endsInMarker_concat, decide_eq_false hc, Bool.false_and]

theorem ne_hyphen_of_isSpace (hc : isSpace c = true) : c ≠ '-' := by
  rintro rfl
  cases hc

theorem Precedes.of_isSpace (hc : isSpace c = true) (front : List Char) :
    Precedes (front ++ [c]) true :=
  hc ▸ .concat (ne_hyphen_of_isSpace hc) front

theorem Precedes.append_space (h : Precedes front false) (hw : ∀ c ∈ w, isSpace c = true) :
    Precedes (front ++ w) (!w.isEmpty) := by
  rcases List.eq_nil_or_concat' w with rfl | ⟨w, c, rfl⟩
  · rwa [List.append_nil]
  · rw [← List.append_assoc]
    have hne : (!(w ++ [c]).isEmpty) = true := by simp
    rw [hne]
    exact .of_isSpace (hw c (by simp)) _

/-- Behind a lexeme stands no space, and the lexeme is no loose hyphen. -/
theorem Precedes.of_isWritten (h : Lexeme.IsWritten chars) (front : List Char) :
    Precedes (front ++ chars) false := by
  cases h with
  | quotation hq =>
    obtain ⟨mark, cs, _, hmark, -, rfl⟩ := hq.ends
    have hne : mark ≠ '-' ∧ isSpace mark = false := by
      simp only [isQuoteMark, Bool.or_eq_true, decide_eq_true_eq] at hmark
      rcases hmark with (rfl | rfl) | rfl <;> decide
    rw [← List.append_assoc, ← hne.2]
    exact .concat hne.1 _
  | bare hbare hne hhyphen =>
    rcases List.eq_nil_or_concat' chars with rfl | ⟨cs, c, rfl⟩
    · exact absurd rfl hne
    have hspace : ∀ d ∈ cs ++ [c], isSpace d = false := fun d hd =>
      (Lexeme.isBare_iff.mp (hbare d hd)).2.2
    rw [← List.append_assoc]
    refine ⟨(endsInSpace_concat _ c).trans (hspace c (by simp)), ?_⟩
    rw [endsInMarker_concat]
    rcases List.eq_nil_or_concat' cs with rfl | ⟨cs, d, rfl⟩
    · have hc : c ≠ '-' := fun hc => hhyphen (by rw [hc]; rfl)
      rw [decide_eq_false hc, Bool.false_and]
    · rw [← List.append_assoc, endsInSpace_concat, hspace d (by simp), Bool.and_false]

/-! ## Actions -/

theorem plain_of_isSpace (hc : isSpace c = true) : isQuoteMark c = false ∧ c ≠ '\x7d' := by
  simp only [isSpace, Bool.or_eq_true, decide_eq_true_eq] at hc
  rcases hc with ((rfl | rfl) | rfl) | rfl <;> decide

theorem isInside_of_isWritten (hchars : Lexeme.IsWritten chars) (h : IsInside cs) :
    IsInside (chars ++ cs) := by
  cases hchars with
  | bare hbare _ _ =>
    refine h.append fun d hd => ?_
    obtain ⟨hquote, hbrace, -⟩ := Lexeme.isBare_iff.mp (hbare d hd)
    exact ⟨hquote, hbrace⟩
  | quotation hq => exact .quotation hq h

/-- **What is read of an action** is its inside, and the text behind it is trimmed if it ends so. -/
theorem exists_inside_of_readAction (h : readAction opened pos space cs = .ok body) :
    ∀ front, Precedes front space → ∃ inside, cs = inside ++ body.closing.rest ∧
      IsInside inside ∧ endsTrimming (front ++ inside) = body.closing.trims := by
  induction h using readAction_induction with
  | space _ _ c tail body hc _ _ ih =>
    intro front _
    obtain ⟨inside, rfl, hinside, htrims⟩ := ih (front ++ [c]) (.of_isSpace hc front)
    refine ⟨[c] ++ inside, rfl, hinside.append fun d hd => ?_, ?_⟩
    · rw [List.mem_singleton.mp hd]
      exact plain_of_isSpace hc
    · rwa [← List.append_assoc]
  | trimming pos c tail _ htrim _ =>
    intro front hfront
    rw [closesTrimming_eq, decide_eq_true_iff] at htrim
    refine ⟨['-', '\x7d', '\x7d'], ?_, .plain '-' rfl (by decide) .close, ?_⟩
    · rw [← htrim, List.take_append_drop]
    · have hsplit : front ++ ['-', '\x7d', '\x7d'] = front ++ ['-'] ++ ['\x7d', '\x7d'] := by simp
      rw [hsplit, endsTrimming_append, endsInMarker_concat, hfront.space]
      rfl
  | closing pos space c tail _ _ hclose _ =>
    intro front hfront
    rw [closes_eq, decide_eq_true_iff] at hclose
    refine ⟨['\x7d', '\x7d'], ?_, .close, ?_⟩
    · rw [← hclose, List.take_append_drop]
    · rw [endsTrimming_append, hfront.marker]
  | lexeme _ _ c tail l body _ _ _ hs _ _ ih =>
    intro front _
    have hwritten := Lexeme.isWritten_scan hs
    obtain ⟨inside, hrest, hinside, htrims⟩ := ih (front ++ l.chars) (.of_isWritten hwritten front)
    refine ⟨l.chars ++ inside, ?_, isInside_of_isWritten hwritten hinside, ?_⟩
    · rw [List.append_assoc, ← hrest, Lexeme.chars_append_rest hs]
    · rwa [← List.append_assoc]

/-! ## Comments -/

theorem upTo_of_splitComment (h : splitComment cs = some (inside, rest)) :
    ∃ front, inside = front ++ ['*', '/'] ∧ UpTo ['*', '/'] front := by
  fun_induction splitComment cs generalizing inside rest with
  | case1 =>
    cases h
    exact ⟨[], rfl, by decide⟩
  | case2 => cases h
  | case3 c tail hmark ih =>
    obtain ⟨⟨inside, rest⟩, hs, heq⟩ := Option.map_eq_some_iff.mp h
    cases heq
    obtain ⟨front, rfl, hfront⟩ := ih hs
    have hrest : front ++ (['*', '/'] ++ rest) = tail := by
      rw [← List.append_assoc, splitComment_append hs]
    refine ⟨c :: front, rfl, hfront.cons (x := rest) ?_⟩
    -- the mark would stand at the very front, where it would have been read
    rw [hrest]
    rintro ⟨more, hmore⟩
    obtain ⟨rfl, htail⟩ := List.cons.inj hmore
    exact hmark more rfl htail.symm

/-- Behind the last mark of a comment stand space and a right delimiter, and what stands before them
does not tell whether the text behind is trimmed. -/
theorem exists_tail_of_endsComment (h : EndsComment rest closing) :
    ∃ tail, rest = tail ++ (['\x7d', '\x7d'] ++ closing.rest) ∧ IsLead tail.reverse ∧
      ∀ front, Precedes front false →
        endsTrimming (front ++ (tail ++ ['\x7d', '\x7d'])) = closing.trims := by
  have hspace : ∀ c ∈ rest.takeWhile isSpace, isSpace c = true := fun c => List.mem_takeWhile_imp
  have hreverse : ∀ c ∈ (rest.takeWhile isSpace).reverse, isSpace c = true := fun c hc =>
    hspace c (List.mem_reverse.mp hc)
  cases h with
  | trimming hne hcloses htrims hrest =>
    rw [closesTrimming_eq, decide_eq_true_iff] at hcloses
    refine ⟨rest.takeWhile isSpace ++ ['-'], ?_, ?_, fun front hfront => ?_⟩
    · have hmarked : ['-', '\x7d', '\x7d'] ++ closing.rest = rest.dropWhile isSpace := by
        rw [hrest, ← hcloses, List.take_append_drop]
      rw [List.append_assoc]
      exact (List.takeWhile_append_dropWhile.symm).trans (congrArg _ hmarked.symm)
    · rw [List.reverse_concat]
      exact .marker hreverse (by simpa using hne)
    · have hassoc : front ++ (rest.takeWhile isSpace ++ ['-'] ++ ['\x7d', '\x7d']) =
          front ++ rest.takeWhile isSpace ++ ['-'] ++ ['\x7d', '\x7d'] := by simp
      rw [hassoc, endsTrimming_append, endsInMarker_concat, (hfront.append_space hspace).space,
        htrims]
      simpa using hne
  | plain hcloses htrims hrest =>
    rw [closes_eq, decide_eq_true_iff] at hcloses
    refine ⟨rest.takeWhile isSpace, ?_, .space hreverse, fun front hfront => ?_⟩
    · rw [hrest, ← hcloses, List.take_append_drop, List.takeWhile_append_dropWhile]
    · rw [← List.append_assoc, endsTrimming_append, (hfront.append_space hspace).marker, htrims]

/-- **What is read of a comment** ends with its last mark, space and a right delimiter, and the text
behind it is trimmed if it ends so. -/
theorem exists_comment_of_readComment (h : readComment opened pos cs = .ok closing) :
    ∃ inside tail, cs = inside ++ (['*', '/'] ++ (tail ++ (['\x7d', '\x7d'] ++ closing.rest))) ∧
      UpTo ['*', '/'] inside ∧ IsLead tail.reverse ∧ ∀ front,
      endsTrimming (front ++ (['*', '/'] ++ (tail ++ ['\x7d', '\x7d']))) = closing.trims := by
  obtain ⟨inside, rest, hsplit, hends⟩ := exists_of_readComment h
  obtain ⟨inside, rfl, hinside⟩ := upTo_of_splitComment hsplit
  obtain ⟨tail, rfl, htail, htrims⟩ := exists_tail_of_endsComment hends
  have hcs := splitComment_append hsplit
  rw [List.append_assoc] at hcs
  refine ⟨inside, tail, hcs.symm, hinside, htail, fun front => ?_⟩
  have hslash : Precedes (front ++ ['*'] ++ ['/']) false := .concat (by decide) _
  have hassoc : front ++ (['*', '/'] ++ (tail ++ ['\x7d', '\x7d'])) =
      front ++ ['*'] ++ ['/'] ++ (tail ++ ['\x7d', '\x7d']) := by simp
  rw [hassoc, htrims _ hslash]

/-! ## Behind a left delimiter -/

/-- What is left behind a left delimiter, its trim marker and space. -/
def behindLead (cs : List Char) : List Char :=
  (behindDelim ('\x7b' :: '\x7b' :: cs)).dropWhile isSpace

/-- A left delimiter has a trim marker, or what stands behind it is left as it is. -/
theorem behindDelim_cases (cs : List Char) :
    (∃ c rest, cs = '-' :: c :: rest ∧ isSpace c = true ∧
      behindDelim ('\x7b' :: '\x7b' :: cs) = c :: rest) ∨
    behindDelim ('\x7b' :: '\x7b' :: cs) = cs := by
  unfold behindDelim
  split
  · next htrim =>
    unfold opensTrimming at htrim
    split at htrim
    · next c rest heq =>
      cases heq
      exact .inl ⟨c, rest, rfl, htrim, rfl⟩
    · cases htrim
  · exact .inr rfl

theorem exists_lead (cs : List Char) :
    ∃ lead, IsLead lead ∧ cs = lead ++ behindLead cs ∧
      Precedes ('\x7b' :: '\x7b' :: lead)
        (!((behindDelim ('\x7b' :: '\x7b' :: cs)).takeWhile isSpace).isEmpty) := by
  have hdelim : Precedes ['\x7b', '\x7b'] false := ⟨rfl, rfl⟩
  have hmarked : Precedes ['\x7b', '\x7b', '-'] false := ⟨rfl, rfl⟩
  rcases behindDelim_cases cs with ⟨c, rest, rfl, hc, hbehind⟩ | hbehind
  · rw [behindLead, hbehind, List.takeWhile_cons_of_pos hc]
    have hspace : ∀ d ∈ c :: rest.takeWhile isSpace, isSpace d = true :=
      List.forall_mem_cons.mpr ⟨hc, fun d => List.mem_takeWhile_imp⟩
    refine ⟨'-' :: c :: rest.takeWhile isSpace, .marker hspace (List.cons_ne_nil _ _), ?_,
      hmarked.append_space hspace⟩
    rw [List.dropWhile_cons_of_pos hc]
    simp
  · rw [behindLead, hbehind]
    have hspace : ∀ d ∈ cs.takeWhile isSpace, isSpace d = true := fun d => List.mem_takeWhile_imp
    exact ⟨cs.takeWhile isSpace, .space hspace, List.takeWhile_append_dropWhile.symm,
      hdelim.append_space hspace⟩

/-- Where a comment opens, its mark stands behind the left delimiter, the trim marker and space. -/
theorem opensComment_behindLead (h : OpensComment cs) : opensComment (behindLead cs) = true := by
  obtain ⟨lead, hlead, rest, rfl⟩ := h
  have hdrop {w : List Char} (hw : ∀ c ∈ w, isSpace c = true) :
      (w ++ ['/', '*'] ++ rest).dropWhile isSpace = '/' :: '*' :: rest := by
    rw [List.append_assoc, List.dropWhile_append_of_pos hw]
    rfl
  cases hlead with
  | space hw =>
    rcases behindDelim_cases (lead ++ ['/', '*'] ++ rest) with ⟨c, more, heq, -, -⟩ | hbehind
    · exfalso
      cases lead with
      | nil => cases heq
      | cons d w => exact ne_hyphen_of_isSpace (hw d List.mem_cons_self) (List.cons.inj heq).1
    · rw [behindLead, hbehind, hdrop hw]
      rfl
  | @marker w hw hne =>
    obtain ⟨c, w, rfl⟩ := List.exists_cons_of_ne_nil hne
    have htrim : opensTrimming ('\x7b' :: '\x7b' :: ('-' :: c :: w ++ ['/', '*'] ++ rest)) = true :=
      hw c List.mem_cons_self
    have hbehind : behindDelim ('\x7b' :: '\x7b' :: ('-' :: c :: w ++ ['/', '*'] ++ rest)) =
        c :: w ++ ['/', '*'] ++ rest := by
      rw [behindDelim, if_pos htrim]
      rfl
    rw [behindLead, hbehind, hdrop hw]
    rfl

theorem OpensComment.of_behindLead (h : opensComment (behindLead cs) = true) : OpensComment cs := by
  obtain ⟨lead, hlead, hcs, -⟩ := exists_lead cs
  rw [opensComment_eq, decide_eq_true_iff] at h
  refine ⟨lead, hlead, (behindLead cs).drop 2, ?_⟩
  rw [List.append_assoc, ← h, List.take_append_drop, ← hcs]

/-- **What is read behind a left delimiter is a block**, and the text behind it is trimmed if it ends
with space and a right delimiter with a trim marker. -/
theorem exists_block_of_readBraces {action : Option Action}
    (h : readBraces opened ('\x7b' :: '\x7b' :: cs) = .ok (action, closing)) :
    ∃ block, '\x7b' :: '\x7b' :: cs = block ++ closing.rest ∧ IsBlock block ∧
      endsTrimming block = closing.trims := by
  obtain ⟨lead, hlead, hcs, hprecedes⟩ := exists_lead cs
  rcases readBraces_cases h with ⟨hcomment, -, pos, hread⟩ | ⟨hcomment, pos, body, hread, -, rfl⟩
  · obtain ⟨inside, tail, hrest, hinside, htail, htrims⟩ := exists_comment_of_readComment hread
    rw [opensComment_eq, decide_eq_true_iff] at hcomment
    refine ⟨_, ?_, .comment (.mk hlead hinside htail), ?_⟩
    · have hbehind : behindLead cs = ['/', '*'] ++ (inside ++ (['*', '/'] ++
          (tail ++ (['\x7d', '\x7d'] ++ closing.rest)))) := by
        rw [← hrest, ← hcomment, List.take_append_drop]
        rfl
      conv => lhs; rw [hcs, hbehind]
      simp
    · rw [← htrims ('\x7b' :: '\x7b' :: (lead ++ (['/', '*'] ++ inside)))]
      simp
  · obtain ⟨inside, hrest, hinside, htrims⟩ := exists_inside_of_readAction hread _ hprecedes
    have hbehind : behindLead cs = inside ++ body.closing.rest := hrest
    rw [hbehind, ← List.append_assoc] at hcs
    refine ⟨'\x7b' :: '\x7b' :: (lead ++ inside), ?_, .action (.mk ?_ fun hopens => ?_), htrims⟩
    · conv => lhs; rw [hcs]
      rfl
    · refine hinside.append fun c hc => ?_
      rcases hlead.isSpace_or c hc with hspace | rfl
      · exact plain_of_isSpace hspace
      · exact ⟨rfl, by decide⟩
    · obtain ⟨lead', hlead', hbegins⟩ := hopens
      have hopens : OpensComment cs := ⟨lead', hlead', by
        rw [hcs]
        exact hbegins.trans (List.prefix_append ..)⟩
      cases hcomment.symm.trans (opensComment_behindLead hopens)

end Scan

end Fieldwise
