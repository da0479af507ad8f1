import Fieldwise.Template.Error
import Fieldwise.Text.Alphabetic
import Fieldwise.Text.Hexadecimal
import Fieldwise.Text.Numeric

/-!
# Lexemes inside an action

A lexeme is the stretch of characters that one token of an action is written as. `Lexeme.scan`
reads the lexeme at the head of a list of characters; where it ends depends on nothing but the
characters themselves.

Main statement: `Lexeme.chars_append_rest` — what a lexeme holds and what it leaves make up
the input, so nothing is dropped or read twice.
-/

set_option autoImplicit false

namespace Fieldwise

/-- Space inside an action. -/
def isSpace (c : Char) : Bool :=
  c = ' ' || c = '\t' || c = '\r' || c = '\n'

/-- A character of a name. -/
def isWordChar (c : Char) : Bool :=
  c = '_' || Text.isAlphabetic c || Text.isNumeric c

/-- A token, the characters it is written as, and the characters after it. -/
structure Lexeme where
  kind : TokenKind
  chars : List Char
  rest : List Char

namespace Lexeme

/-- The characters of `cs` up to the first that fails `p`, made a token by `make`. The
characters `head` stand before `cs` and belong to the lexeme. -/
def run (make : String → TokenKind) (p : Char → Bool) (head cs : List Char) : Lexeme :=
  let chars := head ++ cs.takeWhile p
  ⟨make (String.ofList chars), chars, cs.dropWhile p⟩

/-! ## Quoted strings -/

/-- The character that a two-character escape stands for. -/
def simpleEscape? (c : Char) : Option Char :=
  if c = 'n' then some '\n'
  else if c = 't' then some '\t'
  else if c = 'r' then some '\r'
  else if c = 'a' then some '\x07'
  else if c = 'b' then some '\x08'
  else if c = 'f' then some '\x0c'
  else if c = 'v' then some '\x0b'
  else if c = '0' then some '\x00'
  else if c = '\\' || c = '"' || c = '\'' then some c
  else none

/-- How many hexadecimal digits follow the mark of an escape by code point. -/
def escapeDigits? (c : Char) : Option Nat :=
  if c = 'x' then some 2
  else if c = 'u' then some 4
  else if c = 'U' then some 8
  else none

/-- Reads exactly `count` hexadecimal digits: their value after `high`, the digits, the rest. -/
def takeHex (count high : Nat) (cs : List Char) : Option (Nat × List Char × List Char) :=
  match count, cs with
  | 0, cs => some (high, [], cs)
  | _ + 1, [] => none
  | count + 1, c :: cs =>
    match Text.hexValue? c with
    | none => none
    | some digit =>
      match takeHex count (high * 16 + digit) cs with
      | none => none
      | some (value, used, rest) => some (value, c :: used, rest)

/-- Reads what follows a backslash: the character meant, the characters used, the rest. -/
def scanEscape (cs : List Char) : Except TemplateFault (Char × List Char × List Char) :=
  match cs with
  | [] => .error .badEscape
  | c :: cs =>
    match simpleEscape? c with
    | some value => .ok (value, [c], cs)
    | none =>
      match escapeDigits? c with
      | none => .error .badEscape
      | some count =>
        match takeHex count 0 cs with
        | none => .error .badHexEscape
        | some (code, used, rest) =>
          if code.isValidChar then .ok (Char.ofNat code, c :: used, rest)
          else .error .notACharacter

theorem takeHex_append {count high value : Nat} {cs used rest : List Char}
    (h : takeHex count high cs = some (value, used, rest)) : used ++ rest = cs := by
  fun_induction takeHex count high cs generalizing value used rest <;> simp_all
  next ih => obtain ⟨_, rfl, rfl⟩ := h; simp [ih]

theorem scanEscape_append {c : Char} {cs used rest : List Char}
    (h : scanEscape cs = .ok (c, used, rest)) : used ++ rest = cs := by
  unfold scanEscape at h
  split at h
  · simp at h
  · split at h
    · simp only [Except.ok.injEq, Prod.mk.injEq] at h
      obtain ⟨_, rfl, rfl⟩ := h
      simp
    · split at h
      · simp at h
      · split at h
        · simp at h
        · next hex =>
          split at h
          · simp only [Except.ok.injEq, Prod.mk.injEq] at h
            obtain ⟨_, rfl, rfl⟩ := h
            simp [takeHex_append hex]
          · simp at h

theorem scanEscape_length_le {c : Char} {cs used rest : List Char}
    (h : scanEscape cs = .ok (c, used, rest)) : rest.length ≤ cs.length := by
  rw [← scanEscape_append h, List.length_append]
  omega

/-- Reads a string up to its closing quote: its value, the characters used, the rest. -/
def scanString (cs : List Char) : Except TemplateFault (List Char × List Char × List Char) :=
  match cs with
  | [] => .error .unterminatedString
  | c :: cs =>
    if c = '\n' then .error .unterminatedString
    else if c = '"' then .ok ([], [c], cs)
    else if c = '\\' then
      match h : scanEscape cs with
      | .error fault => .error fault
      | .ok (value, used, rest) =>
        have := scanEscape_length_le h
        match scanString rest with
        | .error fault => .error fault
        | .ok (values, chars, rest) => .ok (value :: values, c :: used ++ chars, rest)
    else
      match scanString cs with
      | .error fault => .error fault
      | .ok (values, chars, rest) => .ok (c :: values, c :: chars, rest)
termination_by cs.length

/-- Reads a raw string up to its closing backquote: its value and the rest. -/
def scanRaw (cs : List Char) : Except TemplateFault (List Char × List Char) :=
  match cs with
  | [] => .error .unterminatedRawString
  | c :: cs =>
    if c = '\x60' then .ok ([], cs)
    else
      match scanRaw cs with
      | .error fault => .error fault
      | .ok (value, rest) => .ok (c :: value, rest)

/-- Reads a character constant up to its closing quote, which a backslash hides: the
characters used and the rest. -/
def scanCharacter : List Char → Except TemplateFault (List Char × List Char)
  | [] => .error .unterminatedCharacter
  | '\\' :: c :: cs =>
    match scanCharacter cs with
    | .error fault => .error fault
    | .ok (chars, rest) => .ok ('\\' :: c :: chars, rest)
  | c :: cs =>
    if c = '\n' then .error .unterminatedCharacter
    else if c = '\'' then .ok ([c], cs)
    else
      match scanCharacter cs with
      | .error fault => .error fault
      | .ok (chars, rest) => .ok (c :: chars, rest)

/-! ## Numbers -/

/-- A hexadecimal digit. -/
def isHexDigit (c : Char) : Bool :=
  (Text.hexValue? c).isSome

/-- Splits off one character that satisfies `p`. -/
def takeOne (p : Char → Bool) : List Char → List Char × List Char
  | [] => ([], [])
  | c :: cs => if p c then ([c], cs) else ([], c :: cs)

/-- Splits off the characters up to the first that fails `p`. -/
def takeMany (p : Char → Bool) (cs : List Char) : List Char × List Char :=
  (cs.takeWhile p, cs.dropWhile p)

/-- Runs one splitter after another on what is left. -/
def takeBoth (first second : List Char → List Char × List Char) (cs : List Char) :
    List Char × List Char :=
  let (a, rest) := first cs
  let (b, rest) := second rest
  (a ++ b, rest)

/-- Runs the second splitter only if the first one took something. -/
def takeIfAny (first second : List Char → List Char × List Char) (cs : List Char) :
    List Char × List Char :=
  match first cs with
  | ([], rest) => ([], rest)
  | (a, rest) => let (b, rest) := second rest; (a ++ b, rest)

/-- A sign. -/
def isSign (c : Char) : Bool :=
  c = '+' || c = '-'

/-- A digit of a number, or the underscore that groups digits. -/
def isDigitOrBar (c : Char) : Bool :=
  c = '_' || c.isDigit

/-- A number in base ten: digits, a fraction, an exponent. -/
def takeDecimal : List Char → List Char × List Char :=
  takeBoth (takeMany isDigitOrBar) <|
    takeBoth (takeIfAny (takeOne (· = '.')) (takeMany isDigitOrBar)) <|
      takeIfAny (takeOne fun c => c = 'e' || c = 'E') <|
        takeBoth (takeOne isSign) (takeMany Char.isDigit)

/-- The letter after a zero that announces another base. -/
def isBaseMark (c : Char) : Bool :=
  c = 'x' || c = 'X' || c = 'o' || c = 'O' || c = 'b' || c = 'B'

/-- A number without its sign and without the mark of an imaginary one. All other bases than
ten share the hexadecimal digits. -/
def takeMagnitude : List Char → List Char × List Char
  | '0' :: mark :: cs =>
    if isBaseMark mark then
      let (digits, rest) := takeMany (fun c => c = '_' || isHexDigit c) cs
      ('0' :: mark :: digits, rest)
    else takeDecimal ('0' :: mark :: cs)
  | cs => takeDecimal cs

/-- Splits off all that is written like a number. -/
def takeNumber : List Char → List Char × List Char :=
  takeBoth (takeOne isSign) (takeBoth takeMagnitude (takeOne (· = 'i')))

/-- Reads a number. It has a digit, and no character of a name follows it. -/
def scanNumber (cs : List Char) : Except TemplateFault Lexeme :=
  let (chars, rest) := takeNumber cs
  if chars.any Char.isDigit && !(rest.head?.any isWordChar) then
    .ok ⟨.number (String.ofList chars), chars, rest⟩
  else .error (.badNumber (String.ofList (chars ++ rest.takeWhile isWordChar)))

/-! ## All lexemes -/

/-- What a word stands for. -/
def wordKind (word : String) : TokenKind :=
  if word = "true" then .bool true
  else if word = "false" then .bool false
  else if word = "nil" then .nil
  else
    match Keyword.ofText? word with
    | some k => .keyword k
    | none => .identifier word

/-- How a lexeme goes on, told by its first character. -/
inductive Start where
  | mark (kind : TokenKind)
  | colon
  | quote
  | backquote
  | apostrophe
  | dollar
  | dot
  | number
  | word
  | unknown

/-- What the first character of a lexeme announces. -/
def Start.of (c : Char) : Start :=
  if c = '|' then mark .pipe
  else if c = '(' then mark .leftParen
  else if c = ')' then mark .rightParen
  else if c = ',' then mark .comma
  else if c = '=' then mark .assign
  else if c = ':' then colon
  else if c = '"' then quote
  else if c = '\x60' then backquote
  else if c = '\'' then apostrophe
  else if c = '$' then dollar
  else if c = '.' then dot
  else if isSign c || c.isDigit then number
  else if c = '_' || Text.isAlphabetic c then word
  else unknown

/-- Reads the declaration mark after its colon. -/
def scanDeclare (c : Char) : List Char → Except TemplateFault Lexeme
  | '=' :: rest => .ok ⟨.declare, [c, '='], rest⟩
  | _ => .error .loneColon

/-- Reads what a dot starts: a fraction, the name of a field, or the dot itself. -/
def scanDot (c : Char) (cs : List Char) : Except TemplateFault Lexeme :=
  if cs.head?.any Char.isDigit then scanNumber (c :: cs)
  else if cs.head?.any isWordChar then
    .ok ⟨.field (String.ofList (cs.takeWhile isWordChar)), c :: cs.takeWhile isWordChar,
      cs.dropWhile isWordChar⟩
  else .ok ⟨.dot, [c], cs⟩

/-- Reads the lexeme that starts with `c` and goes on in `cs`. -/
def scan (c : Char) (cs : List Char) : Except TemplateFault Lexeme :=
  match Start.of c with
  | .mark kind => .ok ⟨kind, [c], cs⟩
  | .colon => scanDeclare c cs
  | .quote =>
    match scanString cs with
    | .error fault => .error fault
    | .ok (value, chars, rest) => .ok ⟨.string (String.ofList value), c :: chars, rest⟩
  | .backquote =>
    match scanRaw cs with
    | .error fault => .error fault
    | .ok (value, rest) => .ok ⟨.string (String.ofList value), c :: value ++ ['\x60'], rest⟩
  | .apostrophe =>
    match scanCharacter cs with
    | .error fault => .error fault
    | .ok (chars, rest) => .ok ⟨.number (String.ofList (c :: chars)), c :: chars, rest⟩
  | .dollar => .ok (run .var isWordChar [c] cs)
  | .dot => scanDot c cs
  | .number => scanNumber (c :: cs)
  | .word => .ok (run wordKind isWordChar [c] cs)
  | .unknown => .error (.unknownCharacter c)

/-! ## Lexeme and rest make up the input -/

theorem scanString_append {cs values chars rest : List Char}
    (h : scanString cs = .ok (values, chars, rest)) : chars ++ rest = cs := by
  fun_induction scanString cs generalizing values chars rest <;>
    simp only [reduceCtorEq, Except.ok.injEq, Prod.mk.injEq] at h
  · obtain ⟨_, rfl, rfl⟩ := h
    rfl
  · next he _ _ _ _ hs _ _ ih =>
    obtain ⟨_, rfl, rfl⟩ := h
    rw [List.append_assoc, ih hs, List.cons_append, scanEscape_append he]
  · next hs ih =>
    obtain ⟨_, rfl, rfl⟩ := h
    simp [ih hs]

theorem scanRaw_append {cs value rest : List Char} (h : scanRaw cs = .ok (value, rest)) :
    value ++ '\x60' :: rest = cs := by
  fun_induction scanRaw cs generalizing value rest <;>
    simp only [reduceCtorEq, Except.ok.injEq, Prod.mk.injEq] at h
  · obtain ⟨rfl, rfl⟩ := h; simp
  · next hs ih => obtain ⟨rfl, rfl⟩ := h; simp [ih hs]

theorem scanCharacter_append {cs chars rest : List Char}
    (h : scanCharacter cs = .ok (chars, rest)) : chars ++ rest = cs := by
  fun_induction scanCharacter cs generalizing chars rest <;>
    simp only [reduceCtorEq, Except.ok.injEq, Prod.mk.injEq] at h
  · next hs ih => obtain ⟨rfl, rfl⟩ := h; simp [ih hs]
  · obtain ⟨rfl, rfl⟩ := h; rfl
  · next hs ih => obtain ⟨rfl, rfl⟩ := h; simp [ih hs]

theorem takeOne_append (p : Char → Bool) (cs : List Char) :
    (takeOne p cs).1 ++ (takeOne p cs).2 = cs := by
  cases cs with
  | nil => rfl
  | cons c cs => simp only [takeOne]; split <;> rfl

theorem takeMany_append (p : Char → Bool) (cs : List Char) :
    (takeMany p cs).1 ++ (takeMany p cs).2 = cs :=
  List.takeWhile_append_dropWhile

theorem takeBoth_append {f g : List Char → List Char × List Char}
    (hf : ∀ cs, (f cs).1 ++ (f cs).2 = cs) (hg : ∀ cs, (g cs).1 ++ (g cs).2 = cs)
    (cs : List Char) : (takeBoth f g cs).1 ++ (takeBoth f g cs).2 = cs := by
  simp [takeBoth, hf, hg]

theorem takeIfAny_append {f g : List Char → List Char × List Char}
    (hf : ∀ cs, (f cs).1 ++ (f cs).2 = cs) (hg : ∀ cs, (g cs).1 ++ (g cs).2 = cs)
    (cs : List Char) : (takeIfAny f g cs).1 ++ (takeIfAny f g cs).2 = cs := by
  have h := hf cs
  unfold takeIfAny
  split
  · next e => simpa [e] using h
  · next e => simp [hg]; simpa [e] using h

theorem takeDecimal_append (cs : List Char) :
    (takeDecimal cs).1 ++ (takeDecimal cs).2 = cs :=
  takeBoth_append (takeMany_append _)
    (takeBoth_append (takeIfAny_append (takeOne_append _) (takeMany_append _))
      (takeIfAny_append (takeOne_append _)
        (takeBoth_append (takeOne_append _) (takeMany_append _)))) cs

theorem takeMagnitude_append (cs : List Char) :
    (takeMagnitude cs).1 ++ (takeMagnitude cs).2 = cs := by
  unfold takeMagnitude
  split
  · split
    · simp [takeMany]
    · exact takeDecimal_append _
  · exact takeDecimal_append _

theorem takeNumber_append (cs : List Char) : (takeNumber cs).1 ++ (takeNumber cs).2 = cs :=
  takeBoth_append (takeOne_append _)
    (takeBoth_append takeMagnitude_append (takeOne_append _)) cs

theorem scanNumber_append_ne_nil {cs : List Char} {l : Lexeme} (h : scanNumber cs = .ok l) :
    l.chars ++ l.rest = cs ∧ l.chars ≠ [] := by
  simp only [scanNumber] at h
  split at h
  · next hd =>
    simp only [Except.ok.injEq] at h
    subst h
    refine ⟨takeNumber_append cs, fun e => ?_⟩
    simp only at e
    simp [e] at hd
  · simp at h

theorem scanDot_append_ne_nil {c : Char} {cs : List Char} {l : Lexeme} (h : scanDot c cs = .ok l) :
    l.chars ++ l.rest = c :: cs ∧ l.chars ≠ [] := by
  unfold scanDot at h
  split at h
  · exact scanNumber_append_ne_nil h
  · split at h <;>
    · simp only [Except.ok.injEq] at h
      subst h
      simp

theorem scan_append_ne_nil {c : Char} {cs : List Char} {l : Lexeme} (h : scan c cs = .ok l) :
    l.chars ++ l.rest = c :: cs ∧ l.chars ≠ [] := by
  unfold scan at h
  split at h
  · cases h; simp
  · unfold scanDeclare at h
    split at h
    · cases h; simp
    · simp at h
  · split at h
    · simp at h
    · next hs => cases h; simp [scanString_append hs]
  · split at h
    · simp at h
    · next hs => cases h; simp [← scanRaw_append hs]
  · split at h
    · simp at h
    · next hs => cases h; simp [scanCharacter_append hs]
  · cases h; simp [run]
  · exact scanDot_append_ne_nil h
  · exact scanNumber_append_ne_nil h
  · cases h; simp [run]
  · simp at h

/-- What a lexeme holds and what it leaves make up the input. -/
theorem chars_append_rest {c : Char} {cs : List Char} {l : Lexeme} (h : scan c cs = .ok l) :
    l.chars ++ l.rest = c :: cs :=
  (scan_append_ne_nil h).1

/-- A lexeme is not empty. -/
theorem chars_ne_nil {c : Char} {cs : List Char} {l : Lexeme} (h : scan c cs = .ok l) :
    l.chars ≠ [] :=
  (scan_append_ne_nil h).2

theorem length_rest_le {c : Char} {cs : List Char} {l : Lexeme} (h : scan c cs = .ok l) :
    l.rest.length ≤ cs.length := by
  have hl := congrArg List.length (chars_append_rest h)
  have hp := List.length_pos_iff.mpr (chars_ne_nil h)
  simp only [List.length_append, List.length_cons] at hl
  omega

end Lexeme

end Fieldwise
