import Intake.Text.Pictured

/-!
# Quoted texts in messages

A text inside a message stands between quotes. A quote, a backslash, a NUL, a tab and the two ends
of lines have a short escape; any other character that has no picture of its own, or only extends
the one before it, is shown by its number in braces.
-/

namespace Intake.Text

/-- A character by its number, in hexadecimal digits between braces. -/
def numbered (c : Char) : List Char :=
  ['\\', 'u', '{'] ++ Nat.toDigits 16 c.toNat ++ ['}']

/-- How a character stands between quotes. -/
def quotedChar (c : Char) : List Char :=
  if c.toNat = 0 then ['\\', '0']
  else if c = '\t' then ['\\', 't']
  else if c = '\r' then ['\\', 'r']
  else if c = '\n' then ['\\', 'n']
  else if c = '"' then ['\\', '"']
  else if c = '\\' then ['\\', '\\']
  else if c.toNat < 0x80 then if 0x20 ≤ c.toNat ∧ c.toNat < 0x7f then [c] else numbered c
  else if isExtending c then numbered c
  else if isPictured c then [c]
  else numbered c

/-- A text between quotes. -/
def quoted (s : String) : String :=
  String.ofList ('"' :: s.toList.flatMap quotedChar ++ ['"'])

end Intake.Text
