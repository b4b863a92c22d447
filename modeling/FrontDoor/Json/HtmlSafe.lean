import FrontDoor.Json.Writer

/-!
# JSON that is safe inside HTML

In this dialect a string also escapes `<`, `>`, `&` and the two line separators, so that no answer
holds a character that matters to HTML. A fragment is written stretch by stretch: the bytes between
two replaced characters are copied in one piece, by their offsets in the fragment.
-/

namespace FrontDoor.Json.HtmlSafe

/-- The replacement of a character that does not stand in the output. -/
def replacement? (c : Char) : Option String :=
  if c = '<' then some "\\u003c"
  else if c = '>' then some "\\u003e"
  else if c = '&' then some "\\u0026"
  else if c = '\u2028' then some "\\u2028"
  else if c = '\u2029' then some "\\u2029"
  else none

/-- A piece of the output: the bytes from `start` up to `stop` of the fragment, or a replacement. -/
inductive Piece where
  | copy (start stop : Nat)
  | replace (text : String)
  deriving DecidableEq

/-- The pieces of the fragment from byte `i` on, where `cs` stands, behind those in `done`, the
latest first. The bytes from `start` up to `i` have not been copied yet. -/
def piecesOnto (done : List Piece) (start i : Nat) : List Char → List Piece
  | [] => (.copy start i :: done).reverse
  | c :: cs =>
    match replacement? c with
    | some r =>
      piecesOnto (.replace r :: .copy start i :: done) (i + c.utf8Size) (i + c.utf8Size) cs
    | none => piecesOnto done start (i + c.utf8Size) cs

def pieces (fragment : List Char) : List Piece := piecesOnto [] 0 0 fragment

/-- The bytes of a piece of the fragment with the given bytes. -/
def Piece.write (fragment : ByteArray) : Piece → Bytes
  | .copy start stop => (fragment.extract start stop).data.toList
  | .replace text => asciiBytes text

def fragment (cs : List Char) : Bytes :=
  (pieces cs).flatMap (Piece.write (Utf8.encode cs).toByteArray)

/-- The text in which every character that does not stand in the output is replaced. -/
def replaceAll (cs : List Char) : List Char :=
  cs.flatMap fun c => ((replacement? c).map String.toList).getD [c]

/-- An object whose values are strings, safe inside HTML. -/
def encode (entries : List (String × String)) : Bytes := stringObject fragment entries

end FrontDoor.Json.HtmlSafe
