import FrontDoor.Text.Digits
import FrontDoor.Text.Utf8

/-!
# Writing JSON

A string is cut at the characters that JSON itself escapes. The fragments between them are written
by a function of the caller's, so that a dialect that escapes more only has to say how it writes a
fragment.
-/

namespace FrontDoor.Json

/-- Text whose characters are all ASCII, as bytes. -/
def asciiBytes (s : String) : Bytes := s.toList.map asciiByte

/-- The two hexadecimal digits of a number below 256, in lower case. -/
def twoHexDigits (n : Nat) : List Char := [Nat.digitChar (n / 16), Nat.digitChar (n % 16)]

/-- The escape of a character that cannot stand in a string as it is: quotes, backslashes and
control characters. -/
def escape? (c : Char) : Option (List Char) :=
  if c = '"' then some ['\\', '"']
  else if c = '\\' then some ['\\', '\\']
  else if c = '\x08' then some ['\\', 'b']
  else if c = '\x0c' then some ['\\', 'f']
  else if c = '\n' then some ['\\', 'n']
  else if c = '\r' then some ['\\', 'r']
  else if c = '\t' then some ['\\', 't']
  else if c.toNat < 0x20 then some (['\\', 'u', '0', '0'] ++ twoHexDigits c.toNat)
  else none

/-- A piece of a string: characters that stand for themselves, or one escape. -/
inductive Part where
  | fragment (cs : List Char)
  | escape (cs : List Char)

/-- A string cut at its escapes. Fragments are not empty and no two are neighbours. -/
def parts (cs : List Char) : List Part :=
  cs.foldr (fun c ps =>
    match escape? c with
    | some e => .escape e :: ps
    | none =>
      match ps with
      | .fragment f :: rest => .fragment (c :: f) :: rest
      | _ => .fragment [c] :: ps) []

/-- A part as bytes, when fragments are written by `fragment`. -/
def Part.write (fragment : List Char → Bytes) : Part → Bytes
  | .fragment cs => fragment cs
  | .escape cs => Utf8.encode cs

/-- A string in quotes, with its fragments written by `fragment`. -/
def quote (fragment : List Char → Bytes) (s : String) : Bytes :=
  asciiBytes "\"" ++ (parts s.toList).flatMap (Part.write fragment) ++ asciiBytes "\""

/-- An object of members whose names and values are written already. -/
def object (members : List (Bytes × Bytes)) : Bytes :=
  asciiBytes "\x7b"
    ++ ((members.map fun m => m.1 ++ asciiBytes ":" ++ m.2).intersperse (asciiBytes ",")).flatten
    ++ asciiBytes "\x7d"

def stringObject (fragment : List Char → Bytes) (entries : List (String × String)) : Bytes :=
  object (entries.map fun e => (quote fragment e.1, quote fragment e.2))

end FrontDoor.Json
