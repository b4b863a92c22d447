import FrontDoor.Text.Digits

/-!
# The front of a text

What readers of several formats take off the front of a text: a number within bounds, or a character
that has to stand there.
-/

namespace FrontDoor

/-- A number of at most `limit` at the front of a text: all digits there, of which there may be at
most `digits`. A leading zero is refused unless `zeros` allows it or it stands alone. -/
def readBounded? (base limit : Nat) (digits : Option Nat) (zeros : Bool) (cs : List Char) :
    Option (Nat × List Char) :=
  let isDigit (c : Char) : Bool := (Digits.hexDigit? c).any (· < base)
  let ds := cs.takeWhile isDigit
  match Digits.value? base Digits.hexDigit? ds with
  | none => none
  | some n =>
    if ds.isEmpty || digits.any (· < ds.length) || limit < n
        || (!zeros && ds.head? = some '0' && 1 < ds.length) then none
    else some (n, cs.drop ds.length)

/-- What follows a character at the front. -/
def expectChar? (c : Char) : List Char → Option (List Char)
  | [] => none
  | c' :: cs => if c' = c then some cs else none

end FrontDoor
