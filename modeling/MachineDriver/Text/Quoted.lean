import MachineDriver.Text.Decimal
import MachineDriver.Text.Printable

set_option autoImplicit false

/-!
# Quoted texts

A text between double quotes in which every character can be seen: a backslash goes before quotes
and backslashes, four controls have a letter of their own, and each other character that leaves no
mark is written as its code point in braces.
-/

namespace MachineDriver.Text

/-- The characters that stand for one character between quotes. -/
def quotedChar (c : Char) : List Char :=
  if c = '\t' then ['\\', 't']
  else if c = '\n' then ['\\', 'n']
  else if c = '\r' then ['\\', 'r']
  else if c = '\x00' then ['\\', '0']
  else if c = '"' then ['\\', '"']
  else if c = '\\' then ['\\', '\\']
  else if isPrintable c then [c]
  else ['\\', 'u', '\x7b'] ++ hexadecimal c.toNat ++ ['\x7d']

/-- A text between double quotes. -/
def quoted (s : String) : String :=
  String.ofList ('"' :: s.toList.flatMap quotedChar ++ ['"'])

end MachineDriver.Text
