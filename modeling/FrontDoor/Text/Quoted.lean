import FrontDoor.Text.Digits
import FrontDoor.Text.Unprintable

/-!
# Quoted text

A text is shown to a person in double quotes, with escapes for what cannot be seen.
-/

namespace FrontDoor.Quoted

/-- A character as it stands in quoted text. -/
def char (c : Char) : List Char :=
  if c = '"' then ['\\', '"']
  else if c = '\\' then ['\\', '\\']
  else if c = '\n' then ['\\', 'n']
  else if c = '\r' then ['\\', 'r']
  else if c = '\t' then ['\\', 't']
  else if c = '\x00' then ['\\', '0']
  else if Unprintable.contains c then ['\\', 'u', '\x7b'] ++ Digits.hex c.toNat ++ ['\x7d']
  else [c]

def text (s : String) : String :=
  String.ofList (['"'] ++ s.toList.flatMap char ++ ['"'])

end FrontDoor.Quoted
