import Teleop.Text.Visible

/-!
# Quoted texts

A text between double quotes. A quote and a backslash get a backslash, the usual controls have a
letter, and every other hidden character is written by its number.
-/

namespace Teleop.Text

/-- The digits of `n` in lower-case hexadecimal, with no zeros in front. -/
def hexDigits (n : Nat) : List Char := Nat.toDigits 16 n

/-- How one character stands inside a quoted text. -/
def quotedChar (c : Char) : List Char :=
  if c = '\x00' then ['\\', '0']
  else if c = '\t' then ['\\', 't']
  else if c = '\r' then ['\\', 'r']
  else if c = '\n' then ['\\', 'n']
  else if c = '\\' then ['\\', '\\']
  else if c = '"' then ['\\', '"']
  else if isHidden c then ['\\', 'u', '\x7b'] ++ hexDigits c.toNat ++ ['\x7d']
  else [c]

def quoted (s : String) : String :=
  String.ofList (['"'] ++ s.toList.flatMap quotedChar ++ ['"'])

end Teleop.Text
