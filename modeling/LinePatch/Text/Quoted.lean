import LinePatch.Text.Basic
import LinePatch.Text.Printable

/-!
# Quoted texts

A text in double quotes, on one line and with no character that does not show: a quote and a
backslash get a backslash, some controls a letter, and the rest their code point in braces.
-/

namespace LinePatch.Text

/-- The lower-case hexadecimal digits of a number, without leading zeros. -/
def hexNumber (n : Nat) : Text := Nat.toDigits 16 n

/-- The written form of one character of a quoted text. -/
def quotedChar (c : Char) : Text :=
  if c = '"' then ['\\', '"']
  else if c = '\\' then ['\\', '\\']
  else if c = '\n' then ['\\', 'n']
  else if c = '\r' then ['\\', 'r']
  else if c = '\t' then ['\\', 't']
  else if c.toNat = 0 then ['\\', '0']
  else if isPrintable c then [c]
  else ['\\', 'u', '{'] ++ hexNumber c.toNat ++ ['}']

/-- A text between double quotes. -/
def quoted (t : Text) : Text := '"' :: t.flatMap quotedChar ++ ['"']

end LinePatch.Text
