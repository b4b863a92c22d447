/-!
# Byte sequences

Request targets, bodies and files arrive as bytes. They are lists, so that every reader is a
recursion on what is left.
-/

namespace FrontDoor

/-- A sequence of bytes. -/
abbrev Bytes := List UInt8

def asciiByte (c : Char) : UInt8 := UInt8.ofNat c.toNat

end FrontDoor
