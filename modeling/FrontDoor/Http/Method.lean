import FrontDoor.Bytes

/-!
# Request methods

A method is any token: a name made of the characters that HTTP allows there. Case matters, and names
beyond the common ones are methods like any other.
-/

namespace FrontDoor

/-- The characters of a token. -/
def isTokenChar (c : Char) : Bool := c.isAlphanum || "!#$%&'*+-.^_\x60|~".toList.contains c

structure Method where
  name : String
  isToken : name.toList ≠ [] ∧ name.toList.all isTokenChar
  deriving DecidableEq

namespace Method

/-- The method with the given name, if it is a token. -/
def ofString? (name : String) : Option Method :=
  if h : name.toList ≠ [] ∧ name.toList.all isTokenChar then some ⟨name, h⟩ else none

/-- The method that the bytes name. No byte beyond ASCII is part of a token. -/
def ofBytes? (bs : Bytes) : Option Method :=
  ofString? (String.ofList (bs.map fun b => Char.ofNat b.toNat))

end Method

end FrontDoor
