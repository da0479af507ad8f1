import Fieldwise.Text.Hexadecimal
import Fieldwise.Text.Hidden

/-!
# Quoted text in messages

Messages quote a text or a character so that every character can be told: the delimiter, the
backslash and the usual control characters have a two-character spelling. A character without
a picture of its own, and a combining mark, which would draw onto the character before it, are
spelled by their code points in braces.
-/

set_option autoImplicit false

namespace Fieldwise.Text

/-- A character spelled by its code point. -/
def codePointEscape (c : Char) : List Char :=
  ['\\', 'u', '\x7b'] ++ hexDigits c.toNat ++ ['\x7d']

/-- The spelling of one character between `delimiter`s. -/
def escapeChar (delimiter c : Char) : List Char :=
  if c = delimiter || c = '\\' then ['\\', c]
  else if c = '\n' then ['\\', 'n']
  else if c = '\r' then ['\\', 'r']
  else if c = '\t' then ['\\', 't']
  else if c.toNat = 0 then ['\\', '0']
  else if isHidden c || isCombining c then codePointEscape c
  else [c]

/-- A text in double quotes. -/
def quoted (s : String) : String :=
  String.ofList ('"' :: s.toList.flatMap (escapeChar '"') ++ ['"'])

/-- A character in single quotes. -/
def quotedChar (c : Char) : String :=
  String.ofList ('\'' :: escapeChar '\'' c ++ ['\''])

end Fieldwise.Text
