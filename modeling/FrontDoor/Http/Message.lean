import FrontDoor.Http.Method
import FrontDoor.Http.Target
import FrontDoor.Text.Digits

/-!
# Requests and responses

A request is read from what a client sends; a method or a target that cannot be read is refused
before anything handles the request, the method first.
-/

namespace FrontDoor

/-- A request: its method, the path of its target as it was sent, and its body. -/
structure Request where
  method : Method
  path : Bytes
  body : Bytes
  deriving DecidableEq

/-- Why a request cannot be handled. -/
inductive RequestError where
  | invalidMethod
  | invalidTarget (e : TargetError)
  deriving DecidableEq, Repr

def RequestError.message : RequestError → String
  | .invalidMethod => "invalid HTTP method"
  | .invalidTarget e => e.message

/-- The request with the given method, target and body. -/
def Request.read (method target body : Bytes) : Except RequestError Request :=
  match Method.ofBytes? method with
  | none => .error .invalidMethod
  | some m =>
    match Target.path target with
    | .error e => .error (.invalidTarget e)
    | .ok path => .ok ⟨m, path, body⟩

/-- The status codes that are answered here. -/
def statusOk : Nat := 200
def badRequest : Nat := 400
def notFound : Nat := 404
def methodNotAllowed : Nat := 405
def internalError : Nat := 500

/-- A response: its status, its headers in the order in which they were set, and its body. -/
structure Response where
  status : Nat
  headers : List (String × String)
  body : Bytes
  deriving DecidableEq

namespace Response

def empty (status : Nat) : Response := ⟨status, [], []⟩

/-- A response whose body has a content type. -/
def ofContent (status : Nat) (contentType : String) (body : Bytes) : Response :=
  ⟨status, [("content-type", contentType)], body⟩

/-- The response with the length of its body among its headers. -/
def withLength (r : Response) : Response :=
  { r with headers := r.headers ++ [("content-length", Digits.decimal r.body.length)] }

def header? (r : Response) (name : String) : Option String := r.headers.lookup name

end Response

def plainText : String := "text/plain; charset=utf-8"

end FrontDoor
