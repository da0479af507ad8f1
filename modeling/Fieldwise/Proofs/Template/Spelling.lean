import Fieldwise.Proofs.Template.Braces
import Fieldwise.Proofs.Template.Field

/-!
# How the tokens of an action are written

The relation between tokens and the characters that they are written as is settled by the kinds of
token, without a reader.

* `IsEscape`, `IsEscaped` : the characters of a quoted string and what they mean.
* `reservedWords`, `isNumeralChar` : the words that are no names, the characters of a number.
* `TokenKind.SpelledBy` : the characters that a token inside an action is written as.
* `Lexeme.spelledBy_scan` : what is read as a lexeme is how its token is written.

Of a number it is only said which characters it has and that one of them is a digit.
-/

set_option autoImplicit false

namespace Fieldwise

open Block

/-! ## Quoted strings -/

/-- The characters behind a backslash in a string, and the character that they mean. -/
inductive IsEscape : List Char → Char → Prop
  | simple {c value : Char} (h : Lexeme.simpleEscape? c = some value) : IsEscape [c] value
  | code {mark : Char} {digits : List Char} {values : List Nat}
      (hmark : Lexeme.escapeDigits? mark = some digits.length)
      (hdigits : List.Forall₂ (fun c d => Text.hexValue? c = some d) digits values)
      (hvalid : (values.foldl (fun n d => n * 16 + d) 0).isValidChar) :
      IsEscape (mark :: digits) (Char.ofNat (values.foldl (fun n d => n * 16 + d) 0))

/-- The characters between the quotes of a string, and the characters of the string. -/
inductive IsEscaped : List Char → List Char → Prop
  | nil : IsEscaped [] []
  | escape {used cs values : List Char} {value : Char} (h : IsEscape used value)
      (hrest : IsEscaped cs values) : IsEscaped ('\\' :: (used ++ cs)) (value :: values)
  | plain {c : Char} {cs values : List Char} (hquote : c ≠ '"') (hescape : c ≠ '\\')
      (hline : c ≠ '\n') (hrest : IsEscaped cs values) : IsEscaped (c :: cs) (c :: values)

/-! ## Words and numbers -/

/-- The words that are no names of functions. -/
def reservedWords : List String :=
  "true" :: "false" :: "nil" :: Keyword.all.map Keyword.text

/-- A character that the first one of a word can be. -/
def isWordStart (c : Char) : Bool :=
  c = '_' || Text.isAlphabetic c

/-- A character of a number. -/
def isNumeralChar (c : Char) : Bool :=
  Lexeme.isSign c || c = '_' || c = '.' || Lexeme.isHexDigit c || Lexeme.isBaseMark c || c = 'i'

namespace TokenKind

/-- The characters that a token inside an action is written as. -/
inductive SpelledBy : TokenKind → List Char → Prop
  | pipe : SpelledBy .pipe ['|']
  | leftParen : SpelledBy .leftParen ['(']
  | rightParen : SpelledBy .rightParen [')']
  | comma : SpelledBy .comma [',']
  | assign : SpelledBy .assign ['=']
  | declare : SpelledBy .declare [':', '=']
  | dot : SpelledBy .dot ['.']
  | field {name : String} (h : IsFieldName name) : SpelledBy (.field name) ('.' :: name.toList)
  | var {cs : List Char} (h : ∀ c ∈ cs, isWordChar c = true) :
      SpelledBy (.var (String.ofList ('$' :: cs))) ('$' :: cs)
  | bool (b : Bool) : SpelledBy (.bool b) (toString b).toList
  | nil : SpelledBy .nil "nil".toList
  | keyword (k : Keyword) : SpelledBy (.keyword k) k.text.toList
  | identifier {c : Char} {cs : List Char} (hstart : isWordStart c = true)
      (h : ∀ d ∈ cs, isWordChar d = true) (hfree : String.ofList (c :: cs) ∉ reservedWords) :
      SpelledBy (.identifier (String.ofList (c :: cs))) (c :: cs)
  | string {cs values : List Char} (h : IsEscaped cs values) :
      SpelledBy (.string (String.ofList values)) ('"' :: (cs ++ ['"']))
  | raw {cs : List Char} (h : '\x60' ∉ cs) :
      SpelledBy (.string (String.ofList cs)) ('\x60' :: (cs ++ ['\x60']))
  | character {cs : List Char} (h : IsQuoted '\'' cs) :
      SpelledBy (.number (String.ofList ('\'' :: cs))) ('\'' :: cs)
  | numeral {cs : List Char} (h : ∀ c ∈ cs, isNumeralChar c = true)
      (hdigit : ∃ d ∈ cs, d.isDigit = true) : SpelledBy (.number (String.ofList cs)) cs

theorem SpelledBy.ne_nil {kind : TokenKind} {cs : List Char} (h : kind.SpelledBy cs) : cs ≠ [] := by
  cases h with
  | bool b => cases b <;> decide
  | keyword k => cases k <;> decide
  | numeral _ hdigit =>
    rintro rfl
    obtain ⟨d, hd, -⟩ := hdigit
    cases hd
  | _ => exact List.cons_ne_nil _ _

end TokenKind

open TokenKind

/-! ## Lexemes are written so -/

namespace Lexeme

variable {c value : Char} {cs used rest values chars : List Char} {l : Lexeme}

theorem exists_values_of_takeHex {count high code : Nat}
    (h : takeHex count high cs = some (code, used, rest)) :
    used.length = count ∧ ∃ values, List.Forall₂ (fun c d => Text.hexValue? c = some d) used values ∧
      code = values.foldl (fun n d => n * 16 + d) high := by
  fun_induction takeHex count high cs generalizing code used rest with
  | case1 =>
    cases h
    exact ⟨rfl, [], .nil, rfl⟩
  | case2 => cases h
  | case3 => cases h
  | case4 => cases h
  | case5 _ _ _ _ digit hdigit _ _ _ hrest ih =>
    cases h
    obtain ⟨hlength, values, hvalues, hcode⟩ := ih hrest
    exact ⟨congrArg (· + 1) hlength, digit :: values, .cons hdigit hvalues, hcode⟩

theorem isEscape_of_scanEscape (h : scanEscape cs = .ok (value, used, rest)) :
    IsEscape used value := by
  unfold scanEscape at h
  split at h
  · cases h
  split at h
  · next hsimple =>
    cases h
    exact .simple hsimple
  split at h
  · cases h
  next hmark =>
  split at h
  · cases h
  next hhex =>
  split at h
  · next hvalid =>
    cases h
    obtain ⟨hlength, values, hvalues, rfl⟩ := exists_values_of_takeHex hhex
    exact .code (by rw [hlength]; exact hmark) hvalues hvalid
  · cases h

/-- A string is read up to its closing quote, escapes included. -/
theorem isEscaped_of_scanString (h : scanString cs = .ok (values, chars, rest)) :
    ∃ inside, chars = inside ++ ['"'] ∧ IsEscaped inside values := by
  fun_induction scanString cs generalizing values chars rest with
  | case1 => cases h
  | case2 => cases h
  | case3 =>
    cases h
    exact ⟨[], rfl, .nil⟩
  | case4 => cases h
  | case5 => cases h
  | case6 _ _ used _ hescape _ _ _ _ hrest _ _ ih =>
    cases h
    obtain ⟨inside, rfl, hinside⟩ := ih hrest
    exact ⟨'\\' :: (used ++ inside), by simp, .escape (isEscape_of_scanEscape hescape) hinside⟩
  | case7 => cases h
  | case8 c _ hline hquote hescape _ _ _ hrest ih =>
    cases h
    obtain ⟨inside, rfl, hinside⟩ := ih hrest
    exact ⟨c :: inside, rfl, .plain hquote hescape hline hinside⟩

/-! ### Numbers -/

section Splitters

variable {f g : List Char → List Char × List Char} {p : Char → Bool}

theorem mem_takeOne (h : c ∈ (takeOne p cs).1) : p c = true := by
  cases cs with
  | nil => cases h
  | cons d cs =>
    rw [takeOne] at h
    split at h
    · next hd => exact List.mem_singleton.mp h ▸ hd
    · cases h

theorem mem_takeMany (h : c ∈ (takeMany p cs).1) : p c = true :=
  List.mem_takeWhile_imp h

theorem mem_takeBoth (h : c ∈ (takeBoth f g cs).1) : c ∈ (f cs).1 ∨ c ∈ (g (f cs).2).1 :=
  List.mem_append.mp h

theorem mem_takeIfAny (h : c ∈ (takeIfAny f g cs).1) : c ∈ (f cs).1 ∨ c ∈ (g (f cs).2).1 := by
  unfold takeIfAny at h
  split at h
  · cases h
  · next heq =>
    rw [heq]
    exact List.mem_append.mp h

end Splitters

theorem isHexDigit_of_isDigit (h : c.isDigit = true) : isHexDigit c = true := by
  have hrange : ('0' ≤ c && c ≤ '9') = true := h
  rw [isHexDigit, Text.hexValue?, if_pos hrange]
  rfl

theorem isNumeralChar_of_isDigit (h : c.isDigit = true) : isNumeralChar c = true := by
  simp [isNumeralChar, isHexDigit_of_isDigit h]

theorem isNumeralChar_of_isDigitOrBar (h : isDigitOrBar c = true) : isNumeralChar c = true := by
  simp only [isDigitOrBar, Bool.or_eq_true, decide_eq_true_eq] at h
  rcases h with rfl | hdigit
  · rfl
  · exact isNumeralChar_of_isDigit hdigit

theorem isNumeralChar_of_isSign (h : isSign c = true) : isNumeralChar c = true := by
  simp [isNumeralChar, h]

theorem isNumeralChar_of_mem_takeDecimal (h : c ∈ (takeDecimal cs).1) :
    isNumeralChar c = true := by
  rcases mem_takeBoth h with hmem | hmem
  · exact isNumeralChar_of_isDigitOrBar (mem_takeMany hmem)
  rcases mem_takeBoth hmem with hmem | hmem
  · rcases mem_takeIfAny hmem with hmem | hmem
    · rw [of_decide_eq_true (mem_takeOne hmem)]
      rfl
    · exact isNumeralChar_of_isDigitOrBar (mem_takeMany hmem)
  rcases mem_takeIfAny hmem with hmem | hmem
  · have he := mem_takeOne hmem
    simp only [Bool.or_eq_true, decide_eq_true_eq] at he
    rcases he with rfl | rfl <;> rfl
  rcases mem_takeBoth hmem with hmem | hmem
  · exact isNumeralChar_of_isSign (mem_takeOne hmem)
  · exact isNumeralChar_of_isDigit (mem_takeMany hmem)

theorem isNumeralChar_of_mem_takeMagnitude (h : c ∈ (takeMagnitude cs).1) :
    isNumeralChar c = true := by
  unfold takeMagnitude at h
  split at h
  · next mark tail =>
    split at h
    · next hmark =>
      rcases List.mem_cons.mp h with rfl | h
      · rfl
      rcases List.mem_cons.mp h with rfl | h
      · simp [isNumeralChar, hmark]
      · have hdigit := mem_takeMany h
        simp only [Bool.or_eq_true, decide_eq_true_eq] at hdigit
        rcases hdigit with rfl | hdigit
        · rfl
        · simp [isNumeralChar, hdigit]
    · exact isNumeralChar_of_mem_takeDecimal h
  · exact isNumeralChar_of_mem_takeDecimal h

theorem isNumeralChar_of_mem_takeNumber (h : c ∈ (takeNumber cs).1) : isNumeralChar c = true := by
  rcases mem_takeBoth h with hmem | hmem
  · exact isNumeralChar_of_isSign (mem_takeOne hmem)
  rcases mem_takeBoth hmem with hmem | hmem
  · exact isNumeralChar_of_mem_takeMagnitude hmem
  · rw [of_decide_eq_true (mem_takeOne hmem)]
    rfl

theorem spelledBy_scanNumber (h : scanNumber cs = .ok l) : l.kind.SpelledBy l.chars := by
  simp only [scanNumber] at h
  split at h
  · next hdigit =>
    cases h
    refine .numeral (fun c => isNumeralChar_of_mem_takeNumber) ?_
    exact List.any_eq_true.mp (Bool.and_eq_true_iff.mp hdigit).1
  · cases h

/-! ### Marks, names and words -/

theorem spelledBy_of_mark {kind : TokenKind} (h : Start.of c = .mark kind) :
    kind.SpelledBy [c] := by
  revert h
  fun_cases Start.of c <;> intro h <;> cases h <;> subst c <;> constructor

theorem spelledBy_scanDot (h : scanDot '.' cs = .ok l) : l.kind.SpelledBy l.chars := by
  unfold scanDot at h
  split at h
  · exact spelledBy_scanNumber h
  next hdigit =>
  split at h
  · next hword =>
    cases h
    cases cs with
    | nil => cases hword
    | cons c cs =>
      have hc : isWordChar c = true := hword
      have hname : IsFieldName (String.ofList ((c :: cs).takeWhile isWordChar)) := by
        constructor
        · rw [String.toList_ofList]
          exact fun d => List.mem_takeWhile_imp
        · rw [String.toList_ofList, List.takeWhile_cons_of_pos hc]
          simpa using hdigit
      simpa only [String.toList_ofList] using SpelledBy.field hname
  · cases h
    exact .dot

theorem isWordStart_of_word (h : Start.of c = .word) : isWordStart c = true := by
  revert h
  fun_cases Start.of c <;> intro h <;> cases h
  assumption

theorem text_of_ofText? {word : String} {k : Keyword} (h : Keyword.ofText? word = some k) :
    k.text = word := by
  simpa using List.find?_some h

theorem notMem_reservedWords {word : String} (htrue : word ≠ "true") (hfalse : word ≠ "false")
    (hnil : word ≠ "nil") (hkeyword : Keyword.ofText? word = none) : word ∉ reservedWords := by
  have hfree : word ∉ Keyword.all.map Keyword.text := by
    intro hmem
    obtain ⟨k, hk, htext⟩ := List.mem_map.mp hmem
    exact List.find?_eq_none.mp hkeyword k hk (beq_iff_eq.mpr htext)
  exact List.not_mem_cons_of_ne_of_not_mem htrue
    (List.not_mem_cons_of_ne_of_not_mem hfalse (List.not_mem_cons_of_ne_of_not_mem hnil hfree))

theorem spelledBy_wordKind (hstart : isWordStart c = true) (h : ∀ d ∈ cs, isWordChar d = true) :
    (wordKind (String.ofList (c :: cs))).SpelledBy (c :: cs) := by
  have hlist {word : String} (hword : String.ofList (c :: cs) = word) : c :: cs = word.toList := by
    rw [← hword, String.toList_ofList]
  rw [wordKind]
  split
  · next htrue => exact hlist htrue ▸ .bool true
  split
  · next hfalse => exact hlist hfalse ▸ .bool false
  split
  · next hnil => exact hlist hnil ▸ .nil
  split
  · next k hk => exact hlist (text_of_ofText? hk).symm ▸ .keyword k
  · exact .identifier hstart h (notMem_reservedWords ‹_› ‹_› ‹_› ‹_›)

/-- **What is read as a lexeme is how its token is written.** -/
theorem spelledBy_scan (h : scan c cs = .ok l) : l.kind.SpelledBy l.chars := by
  have hannounced := Start.announced_of c
  unfold scan at h
  generalize hstart : Start.of c = start at h hannounced
  cases start with
  | mark kind =>
    cases h
    exact spelledBy_of_mark hstart
  | colon =>
    cases hannounced
    dsimp only [scanDeclare] at h
    split at h
    · cases h
      exact .declare
    · cases h
  | quote =>
    cases hannounced
    dsimp only at h
    split at h
    · cases h
    · next hs =>
      cases h
      obtain ⟨inside, rfl, hinside⟩ := isEscaped_of_scanString hs
      exact .string hinside
  | backquote =>
    cases hannounced
    dsimp only at h
    split at h
    · cases h
    · next hs =>
      cases h
      exact .raw (notMem_of_scanRaw hs)
  | apostrophe =>
    cases hannounced
    dsimp only at h
    split at h
    · cases h
    · next hs =>
      cases h
      exact .character (isQuoted_of_scanCharacter hs)
  | dollar =>
    cases hannounced
    cases h
    exact .var fun d => List.mem_takeWhile_imp
  | dot =>
    cases hannounced
    exact spelledBy_scanDot h
  | number => exact spelledBy_scanNumber h
  | word =>
    cases h
    exact spelledBy_wordKind (isWordStart_of_word hstart) fun d => List.mem_takeWhile_imp
  | unknown => cases h

end Lexeme

end Fieldwise
