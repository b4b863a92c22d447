import FrontDoor.Http.Message

/-!
# Messages on a connection

A message begins with a request line and header lines, up to an empty line; its body has the length
that a header tells, or none. Messages follow each other without a gap, and so do the responses.
-/

namespace FrontDoor.Wire

/-- The first line of a text, without its end. -/
def line (bs : Bytes) : Bytes :=
  let cs := bs.takeWhile (· ≠ 10)
  if cs.getLast? = some 13 then cs.dropLast else cs

/-- What follows the first line of a text. -/
def afterLine (bs : Bytes) : Bytes := (bs.dropWhile (· ≠ 10)).tail

theorem length_afterLine (b : UInt8) (bs : Bytes) :
    (afterLine (b :: bs)).length < (b :: bs).length := by
  have h := (List.dropWhile_sublist (l := b :: bs) (· ≠ 10)).length_le
  simp only [afterLine, List.length_tail, List.length_cons] at *
  omega

/-- The lines of a head, up to the empty one, and what follows it. -/
def head : Bytes → List Bytes × Bytes
  | [] => ([], [])
  | b :: bs =>
    if line (b :: bs) = [] then ([], afterLine (b :: bs))
    else
      let (lines, rest) := head (afterLine (b :: bs))
      (line (b :: bs) :: lines, rest)
termination_by bs => bs.length
decreasing_by exact length_afterLine b bs

theorem length_head (bs : Bytes) : (head bs).2.length ≤ bs.length := by
  fun_induction head bs with
  | case1 => simp
  | case2 b bs _ => exact Nat.le_of_lt (length_afterLine b bs)
  | case3 b bs _ lines rest h ih =>
    rw [h] at ih
    exact Nat.le_trans ih (Nat.le_of_lt (length_afterLine b bs))

theorem length_head_cons (b : UInt8) (bs : Bytes) :
    (head (b :: bs)).2.length < (b :: bs).length := by
  rw [head]
  split
  · exact length_afterLine b bs
  · exact Nat.lt_of_le_of_lt (length_head _) (length_afterLine b bs)

def words (bs : Bytes) : List Bytes := (bs.splitOn 32).filter (· ≠ [])

/-- A byte in lower case. -/
def lower (b : UInt8) : UInt8 := if 65 ≤ b ∧ b ≤ 90 then b + 32 else b

/-- The length of the body that a header line tells. -/
def bodyLength? (header : Bytes) : Option Nat :=
  let name := (header.takeWhile (· ≠ 58)).map lower
  let value := (header.dropWhile (· ≠ 58)).tail.filter (· ≠ 32)
  if name = "content-length".toUTF8.toList then
    Digits.value? 10 Digits.decimalDigit? (value.map fun b => Char.ofNat b.toNat)
  else none

/-- The request of a message, given the lines of its head and its body. -/
def request (lines : List Bytes) (body : Bytes) : Except RequestError Request :=
  match words (lines.headD []) with
  | [method, target, _] => Request.read method target body
  | _ => .error .invalidMethod

/-- The length of the body that follows the lines of a head. -/
def bodyLength (lines : List Bytes) : Nat := (lines.tail.findSome? bodyLength?).getD 0

/-- The requests of the messages in a text. -/
def requests : Bytes → List (Except RequestError Request)
  | [] => []
  | b :: bs =>
    let lines := (head (b :: bs)).1
    let rest := (head (b :: bs)).2
    request lines (rest.take (bodyLength lines)) :: requests (rest.drop (bodyLength lines))
termination_by bs => bs.length
decreasing_by
  have := length_head_cons b bs
  simp only [List.length_drop]
  omega

def reason (status : Nat) : String :=
  if status = statusOk then "OK"
  else if status = badRequest then "Bad Request"
  else if status = notFound then "Not Found"
  else if status = methodNotAllowed then "Method Not Allowed"
  else if status = internalError then "Internal Server Error"
  else ""

def response (r : Response) : Bytes :=
  let lines := ("HTTP/1.1 " ++ Digits.decimal r.status ++ " " ++ reason r.status)
    :: r.headers.map fun h => h.1 ++ ": " ++ h.2
  (String.join (lines.map (· ++ "\r\n")) ++ "\r\n").toUTF8.toList ++ r.body

end FrontDoor.Wire
