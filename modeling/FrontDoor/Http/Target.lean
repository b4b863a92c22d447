import FrontDoor.Text.Utf8

/-!
# Request targets

A target is a path, perhaps with a query and a fragment, or a whole URI with scheme and authority,
or an authority alone, or a star. What the front door needs of it is the path, as it was sent. Bytes
that should have been escaped are let through in paths and queries where senders are known to leave
them as they are.
-/

namespace FrontDoor

/-- Why a target is refused. -/
inductive TargetError where
  | empty
  | tooLong
  | invalidCharacter
  | invalidAuthority
  | invalidFormat
  | schemeTooLong
  deriving DecidableEq, Repr

def TargetError.message : TargetError → String
  | .empty => "empty string"
  | .tooLong => "uri too long"
  | .invalidCharacter => "invalid uri character"
  | .invalidAuthority => "invalid authority"
  | .invalidFormat => "invalid format"
  | .schemeTooLong => "scheme too long"

namespace Target

/-- The longest target that is read, in bytes. -/
def maxLength : Nat := 65534

/-- The longest scheme, in bytes. -/
def maxSchemeLength : Nat := 64

/-! ## Scheme -/

/-- The bytes that can stand before the colon of a scheme. -/
def isSchemeByte (b : UInt8) : Bool :=
  let c := Char.ofNat b.toNat
  c.isAlphanum || "+-.~".toList.contains c

/-- What follows the scheme of a whole URI and the mark behind it, if the target is one. -/
def afterScheme? (bs : Bytes) : Except TargetError (Option Bytes) :=
  let scheme := bs.takeWhile isSchemeByte
  match bs.drop scheme.length with
  | 0x3A :: 0x2F :: 0x2F :: rest =>
    if bs.length ≤ 3 then .ok none
    else if maxSchemeLength < scheme.length then .error .schemeTooLong
    else .ok (some rest)
  | _ => .ok none

/-! ## Authority -/

/-- The bytes of an authority that stand for themselves. -/
def isAuthorityByte (b : UInt8) : Bool :=
  let c := Char.ofNat b.toNat
  c.isAlphanum || "!$&'()*+,-.;=_~".toList.contains c

/-- What has been seen of an authority: the colons that may belong to a port, the brackets of an
address, whether a percent sign awaits its excuse, and whether the last byte was an at sign. -/
structure AuthorityScan where
  colons : Nat
  opened : Bool
  closed : Bool
  percent : Bool
  endsInAt : Bool

def AuthorityScan.start : AuthorityScan := ⟨0, false, false, false, false⟩

/-- One more byte. An at sign and a closing bracket excuse the colons and percent signs before
them. -/
def AuthorityScan.step (s : AuthorityScan) (b : UInt8) : Except TargetError AuthorityScan :=
  let s := { s with endsInAt := false }
  match Char.ofNat b.toNat with
  | ':' => if 8 ≤ s.colons then .error .invalidAuthority else .ok { s with colons := s.colons + 1 }
  | '[' => if s.percent || s.opened then .error .invalidAuthority else .ok { s with opened := true }
  | ']' =>
    if !s.opened || s.closed then .error .invalidAuthority
    else .ok { s with closed := true, colons := 0, percent := false }
  | '@' => .ok { s with endsInAt := true, colons := 0, percent := false }
  | '%' => .ok { s with percent := true }
  | _ => if isAuthorityByte b then .ok s else .error .invalidCharacter

/-- Whether an authority may end here. -/
def AuthorityScan.complete (s : AuthorityScan) : Bool :=
  s.opened == s.closed && s.colons ≤ 1 && !s.endsInAt && !s.percent

def endsAuthority (b : UInt8) : Bool := b = asciiByte '/' || b = asciiByte '?' || b = asciiByte '#'

/-- Splits off the authority at the front. -/
def splitAuthority (bs : Bytes) : Except TargetError (Bytes × Bytes) := do
  let authority := bs.takeWhile fun b => !endsAuthority b
  let scan ← authority.foldlM AuthorityScan.step .start
  if scan.complete then .ok (authority, bs.drop authority.length) else .error .invalidAuthority

/-! ## Path and query -/

/-- The bytes that a path may hold unescaped. -/
def isPathByte (b : UInt8) : Bool :=
  let n := b.toNat
  n = 0x21 || n = 0x22 || (0x24 ≤ n && n ≤ 0x3B) || n = 0x3D || (0x40 ≤ n && n ≤ 0x5F)
    || (0x61 ≤ n && n ≤ 0x7E) || 0x80 ≤ n

/-- The bytes that a query may hold unescaped. -/
def isQueryByte (b : UInt8) : Bool :=
  let n := b.toNat
  n = 0x21 || (0x24 ≤ n && n ≤ 0x3B) || n = 0x3D || (0x3F ≤ n && n ≤ 0x7E) || 0x80 ≤ n

/-- The path at the front of a text without authority. The fragment is not looked at; the rest has
to be UTF-8. -/
def readPath (bs : Bytes) : Except TargetError Bytes :=
  let text := bs.takeWhile fun b => b ≠ asciiByte '#'
  let path := text.takeWhile fun b => b ≠ asciiByte '?'
  let query := (text.drop path.length).drop 1
  if path.all isPathByte && query.all isQueryByte && Utf8.valid text then .ok path
  else .error .invalidCharacter

def path (bs : Bytes) : Except TargetError Bytes :=
  if maxLength < bs.length then .error .tooLong
  else
    match bs with
    | [] => .error .empty
    | [b] =>
      if b = asciiByte '/' ∨ b = asciiByte '*' then .ok [b]
      else do
        let (_, rest) ← splitAuthority [b]
        if rest.isEmpty then .ok [] else .error .invalidCharacter
    | b :: _ =>
      if b = asciiByte '/' then readPath bs
      else do
        match ← afterScheme? bs with
        | none =>
          let (_, rest) ← splitAuthority bs
          if rest.isEmpty then .ok [] else .error .invalidFormat
        | some after =>
          let (authority, rest) ← splitAuthority after
          if authority.isEmpty then .error .invalidFormat
          else if rest.isEmpty then .ok [asciiByte '/']
          else readPath rest

end Target

end FrontDoor
