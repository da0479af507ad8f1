import Fieldwise.Decimal.Reading
import Fieldwise.Document.Basic
import Fieldwise.Text.Hexadecimal

/-!
# Scalars in TOML

Truth values, whole numbers of 64 bits, decimal numbers, and dates and times. Underscores may
stand between the digits of a number. Dates and times are checked against the calendar and
brought into a normal form.
-/

set_option autoImplicit false

namespace Fieldwise

namespace Toml

/-! ## Whole and decimal numbers -/

/-- Reads digits with single underscores between them, of which there is at least one. -/
def readGrouped (isDigit : Char → Bool) : List Char → Option (List Char × List Char)
  | [] => none
  | c :: '_' :: rest =>
    if isDigit c then
      (readGrouped isDigit rest).map fun (digits, rest) => (c :: digits, rest)
    else none
  | c :: rest =>
    if isDigit c then
      if rest.head?.any isDigit then
        (readGrouped isDigit rest).map fun (digits, rest) => (c :: digits, rest)
      else some ([c], rest)
    else none

/-- Reads a sign: whether it is a minus, and the rest. -/
def readSign : List Char → Bool × List Char
  | '-' :: rest => (true, rest)
  | '+' :: rest => (false, rest)
  | rest => (false, rest)

/-- Reads the digits of a whole number, which do not start with a zero unless it is the only
one. -/
def readWhole (cs : List Char) : Option (List Char × List Char) :=
  match cs with
  | '0' :: rest => some (['0'], rest)
  | _ => readGrouped Char.isDigit cs

/-- Reads an exponent behind its letter. -/
def readExponent (cs : List Char) : Option (Int × List Char) :=
  let (negative, rest) := readSign cs
  (readGrouped Char.isDigit rest).map fun (digits, rest) =>
    (Decimal.signedValue negative digits, rest)

/-- A number in decimal places; a positive one out of range is refused. -/
def decimalNumber (negative : Bool) (whole fraction : List Char) (exponent : Int) :
    Option Document :=
  let x := Decimal.ofDigits negative whole fraction exponent
  if x.isInf && !negative then none else some (.decimal x)

/-- A whole number of 64 bits. -/
def wholeNumber (negative : Bool) (magnitude : Nat) : Option Document :=
  if negative then
    if magnitude ≤ Nat.pow 2 63 then some (.integer (-(magnitude : Int))) else none
  else if magnitude < Nat.pow 2 63 then some (.integer magnitude)
  else none

/-- Reads a number in base ten: with a fraction or an exponent it is decimal. -/
def readNumber (cs : List Char) : Option (Document × List Char) := do
  let (negative, rest) := readSign cs
  let (whole, rest) ← readWhole rest
  match rest with
  | '.' :: rest =>
    let (fraction, rest) ← readGrouped Char.isDigit rest
    match rest with
    | c :: tail =>
      if c = 'e' || c = 'E' then
        let (exponent, rest) ← readExponent tail
        let d ← decimalNumber negative whole fraction exponent
        return (d, rest)
      else
        let d ← decimalNumber negative whole fraction 0
        return (d, rest)
    | [] =>
      let d ← decimalNumber negative whole fraction 0
      return (d, [])
  | c :: tail =>
    if c = 'e' || c = 'E' then
      let (exponent, rest) ← readExponent tail
      let d ← decimalNumber negative whole [] exponent
      return (d, rest)
    else
      let d ← wholeNumber negative (Decimal.digitsValue whole)
      return (d, rest)
  | [] =>
    let d ← wholeNumber negative (Decimal.digitsValue whole)
    return (d, [])

/-- The value of a digit in any base up to sixteen. -/
def digitBelow (base : Nat) (c : Char) : Bool :=
  (Text.hexValue? c).any (· < base)

/-- Reads a whole number in another base behind the mark of the base. -/
def readBased (base : Nat) (cs : List Char) : Option (Document × List Char) := do
  let (digits, rest) ← readGrouped (digitBelow base) cs
  let value := digits.foldl (fun n c => n * base + (Text.hexValue? c).getD 0) 0
  let d ← wholeNumber false value
  return (d, rest)

/-- What follows a word, if it stands at the head of a text. -/
def afterWord? (word : String) (cs : List Char) : Option (List Char) :=
  if word.toList.isPrefixOf cs then some (cs.drop word.length) else none

/-- Reads an infinite number or what is not a number. -/
def readSpecial (cs : List Char) : Option (Document × List Char) :=
  let (negative, rest) := readSign cs
  let signed (x : Float) : Document := .decimal (if negative then -x else x)
  match afterWord? "inf" rest with
  | some rest => some (signed Decimal.infinity, rest)
  | none => (afterWord? "nan" rest).map fun rest => (signed Decimal.notANumber, rest)

/-! ## Dates and times -/

/-- Reads exactly `count` digits whose value satisfies `p`. -/
def readField (count : Nat) (p : Nat → Bool) (cs : List Char) :
    Option (List Char × List Char) :=
  let digits := cs.take count
  if digits.length = count && digits.all Char.isDigit && p (Decimal.digitsValue digits) then
    some (digits, cs.drop count)
  else none

/-- Reads a character that satisfies `p`. -/
def readOne (p : Char → Bool) : List Char → Option (Char × List Char)
  | [] => none
  | c :: rest => if p c then some (c, rest) else none

/-- A year with a 29th of February. -/
def isLeapYear (year : Nat) : Bool :=
  year % 4 = 0 && (year % 100 ≠ 0 || year % 400 = 0)

/-- The number of days of a month. -/
def daysInMonth (year month : Nat) : Nat :=
  if month = 2 then if isLeapYear year then 29 else 28
  else if month = 4 || month = 6 || month = 9 || month = 11 then 30
  else 31

/-- Reads a date. -/
def readDate (cs : List Char) : Option (List Char × List Char) := do
  let (year, rest) ← readField 4 (fun _ => true) cs
  let (_, rest) ← readOne (· = '-') rest
  let (month, rest) ← readField 2 (fun m => 1 ≤ m && m ≤ 12) rest
  let (_, rest) ← readOne (· = '-') rest
  let days := daysInMonth (Decimal.digitsValue year) (Decimal.digitsValue month)
  let (day, rest) ← readField 2 (fun d => 1 ≤ d && d ≤ days) rest
  return (year ++ '-' :: month ++ '-' :: day, rest)

/-- The digits behind the point of a second, to nine places and without zeros at the end. -/
def fractionText (digits : List Char) : List Char :=
  let kept := ((digits.take 9).reverse.dropWhile (· = '0')).reverse
  if kept.isEmpty then [] else '.' :: kept

/-- Reads a time of day. -/
def readTime (cs : List Char) : Option (List Char × List Char) := do
  let (hour, rest) ← readField 2 (· ≤ 23) cs
  let (_, rest) ← readOne (· = ':') rest
  let (minute, rest) ← readField 2 (· ≤ 59) rest
  let (_, rest) ← readOne (· = ':') rest
  let (second, rest) ← readField 2 (· ≤ 60) rest
  let clock := hour ++ ':' :: minute ++ ':' :: second
  match rest with
  | '.' :: tail =>
    let digits := tail.takeWhile Char.isDigit
    if digits.isEmpty then return (clock, rest)
    else return (clock ++ fractionText digits, tail.dropWhile Char.isDigit)
  | _ => return (clock, rest)

/-- Reads the distance from universal time, if it is there. -/
def readOffset (cs : List Char) : Option (List Char × List Char) :=
  match cs with
  | c :: rest =>
    if c = 'Z' || c = 'z' then some (['Z'], rest)
    else if c = '+' || c = '-' then do
      let (hour, rest) ← readField 2 (· ≤ 23) rest
      let (_, rest) ← readOne (· = ':') rest
      let (minute, rest) ← readField 2 (· ≤ 59) rest
      let sign := if Decimal.digitsValue (hour ++ minute) = 0 then '+' else c
      return (sign :: hour ++ ':' :: minute, rest)
    else some ([], cs)
  | [] => some ([], [])

/-- Reads a date, a time, or both with or without a distance from universal time. -/
def readMoment (cs : List Char) : Option (Document × List Char) :=
  match readDate cs with
  | some (date, rest) =>
    match readOne (fun c => c = 'T' || c = 't' || c = ' ') rest with
    | none => some (.moment (String.ofList date), rest)
    | some (_, tail) =>
      match readTime tail with
      | none => some (.moment (String.ofList date), rest)
      | some (time, tail) =>
        (readOffset tail).map fun (offset, rest) =>
          (.moment (String.ofList (date ++ 'T' :: time ++ offset)), rest)
  | none => (readTime cs).map fun (time, rest) => (.moment (String.ofList time), rest)

/-! ## Any scalar that is not a string -/

/-- Reads a truth value, a number, a date or a time. -/
def readScalar (cs : List Char) : Option (Document × List Char) :=
  match cs with
  | '0' :: 'x' :: rest => readBased 16 rest
  | '0' :: 'o' :: rest => readBased 8 rest
  | '0' :: 'b' :: rest => readBased 2 rest
  | 't' :: _ => (afterWord? "true" cs).map fun rest => (.boolean true, rest)
  | 'f' :: _ => (afterWord? "false" cs).map fun rest => (.boolean false, rest)
  | _ =>
    match readMoment cs with
    | some read => some read
    | none =>
      match readSpecial cs with
      | some read => some read
      | none => readNumber cs

end Toml

end Fieldwise
