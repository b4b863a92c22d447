import FrontDoor.Dictionary
import FrontDoor.Text.Digits
import FrontDoor.Text.Utf8

/-!
# String maps in JSON

Request bodies are JSON objects all of whose members are strings, or `null` for the map without
members. Reading follows RFC 8259 to the letter and stops behind the first value, so what comes
after it never matters. A name that comes twice has its last value.
-/

namespace FrontDoor

abbrev StringMap := Dictionary String

namespace Json

/-- White space between tokens: space, tab, line feed and carriage return. -/
def isBlank (b : UInt8) : Bool := b = 0x20 || b = 0x09 || b = 0x0A || b = 0x0D

/-- What follows the white space at the front. -/
def skipBlanks (bs : Bytes) : Bytes := bs.dropWhile isBlank

/-- The number that four hexadecimal digits spell, and what follows them. -/
def readHex4? : Bytes → Option (Nat × Bytes)
  | a :: b :: c :: d :: bs =>
    (Digits.value? 16 Digits.hexDigit? ([a, b, c, d].map fun x => Char.ofNat x.toNat)).map (·, bs)
  | _ => none

/-- The character of an escape `\u` and what follows it. A high surrogate has to be followed by the
escape of a low one, with which it makes one character; a surrogate alone is refused. -/
def readUnicode? (bs : Bytes) : Option (Char × Bytes) :=
  match readHex4? bs with
  | none => none
  | some (n, rest) =>
    if 0xDC00 ≤ n ∧ n ≤ 0xDFFF then none
    else if 0xD800 ≤ n ∧ n ≤ 0xDBFF then
      match rest with
      | s :: u :: low =>
        if s = asciiByte '\\' ∧ u = asciiByte 'u' then
          match readHex4? low with
          | none => none
          | some (m, rest') =>
            if 0xDC00 ≤ m ∧ m ≤ 0xDFFF then
              some (Char.ofNat (0x10000 + (n - 0xD800) * 0x400 + (m - 0xDC00)), rest')
            else none
        else none
      | _ => none
    else some (Char.ofNat n, rest)

/-- The character that a letter behind a backslash stands for. -/
def shortEscape? (b : UInt8) : Option Char :=
  if b = asciiByte '"' then some '"'
  else if b = asciiByte '\\' then some '\\'
  else if b = asciiByte '/' then some '/'
  else if b = asciiByte 'b' then some '\x08'
  else if b = asciiByte 'f' then some '\x0c'
  else if b = asciiByte 'n' then some '\n'
  else if b = asciiByte 'r' then some '\r'
  else if b = asciiByte 't' then some '\t'
  else none

/-- The character of an escape, behind its backslash, and what follows it. -/
def readEscape? : Bytes → Option (Char × Bytes)
  | [] => none
  | b :: bs => if b = asciiByte 'u' then readUnicode? bs else (shortEscape? b).map (·, bs)

theorem length_of_readHex4? {bs rest : Bytes} {n : Nat} (h : readHex4? bs = some (n, rest)) :
    rest.length ≤ bs.length := by
  unfold readHex4? at h
  split at h
  · simp only [Option.map_eq_some_iff, Prod.mk.injEq] at h
    obtain ⟨_, _, _, rfl⟩ := h
    simp only [List.length_cons]
    omega
  · exact absurd h (by simp)

theorem length_of_readUnicode? {bs rest : Bytes} {c : Char}
    (h : readUnicode? bs = some (c, rest)) : rest.length ≤ bs.length := by
  unfold readUnicode? at h
  split at h
  · exact absurd h (by simp)
  · next h₁ =>
    have := length_of_readHex4? h₁
    split at h
    · exact absurd h (by simp)
    · split at h
      · split at h
        · split at h
          · split at h
            · exact absurd h (by simp)
            · next h₂ =>
              have := length_of_readHex4? h₂
              split at h
              · simp only [Option.some.injEq, Prod.mk.injEq] at h
                obtain ⟨_, rfl⟩ := h
                simp only [List.length_cons] at *
                omega
              · exact absurd h (by simp)
          · exact absurd h (by simp)
        · exact absurd h (by simp)
      · simp only [Option.some.injEq, Prod.mk.injEq] at h
        obtain ⟨_, rfl⟩ := h
        exact this

theorem length_of_readEscape? {bs rest : Bytes} {c : Char} (h : readEscape? bs = some (c, rest)) :
    rest.length ≤ bs.length := by
  cases bs with
  | nil => simp [readEscape?] at h
  | cons b bs =>
    simp only [readEscape?] at h
    split at h
    · exact Nat.le_succ_of_le (length_of_readUnicode? h)
    · simp only [Option.map_eq_some_iff, Prod.mk.injEq] at h
      obtain ⟨_, _, _, rfl⟩ := h
      simp

/-- The rest of a string behind the characters in `done`, the latest first, up to its closing
quote, and what follows that. Control characters and ill-formed UTF-8 are refused. -/
def readStringOnto (done : List Char) : Bytes → Option (String × Bytes)
  | [] => none
  | b :: bs =>
    if b = asciiByte '"' then some (String.ofList done.reverse, bs)
    else if b = asciiByte '\\' then
      match _h : readEscape? bs with
      | some (c, rest) => readStringOnto (c :: done) rest
      | none => none
    else if b.toNat < 0x20 then none
    else
      match _h : Utf8.next b bs with
      | (some c, rest) => readStringOnto (c :: done) rest
      | (none, _) => none
termination_by bs => bs.length
decreasing_by
  · exact Nat.lt_succ_of_le (length_of_readEscape? _h)
  · have := Utf8.length_next_le b bs
    rw [_h] at this
    exact Nat.lt_succ_of_le this

/-- A string with its quotes, and what follows it. -/
def readString? : Bytes → Option (String × Bytes)
  | [] => none
  | b :: bs => if b = asciiByte '"' then readStringOnto [] bs else none

theorem length_of_readStringOnto {done : List Char} {bs rest : Bytes} {s : String}
    (h : readStringOnto done bs = some (s, rest)) : rest.length < bs.length := by
  fun_induction readStringOnto done bs with
  | case1 => simp at h
  | case2 => simp_all
  | case3 =>
    rename_i he _ ih
    have := ih h
    have := length_of_readEscape? he
    simp only [List.length_cons]
    omega
  | case4 => simp at h
  | case5 => simp at h
  | case6 done b bs =>
    rename_i hn ih
    have := ih h
    have hl := Utf8.length_next_le b bs
    rw [hn] at hl
    simp only [List.length_cons] at hl ⊢
    omega
  | case7 => simp at h

theorem length_of_readString? {bs rest : Bytes} {s : String}
    (h : readString? bs = some (s, rest)) : rest.length < bs.length := by
  cases bs with
  | nil => simp [readString?] at h
  | cons b bs =>
    simp only [readString?] at h
    split at h
    · exact Nat.lt_succ_of_lt (length_of_readStringOnto h)
    · simp at h

theorem length_skipBlanks_le (bs : Bytes) : (skipBlanks bs).length ≤ bs.length :=
  (List.dropWhile_sublist _).length_le

/-- What follows the token `b` behind white space. -/
def expect? (b : UInt8) (bs : Bytes) : Option Bytes :=
  match skipBlanks bs with
  | b' :: rest => if b' = b then some rest else none
  | [] => none

theorem length_of_expect? {b : UInt8} {bs rest : Bytes} (h : expect? b bs = some rest) :
    rest.length < bs.length := by
  have hs := length_skipBlanks_le bs
  unfold expect? at h
  split at h
  · next heq =>
    split at h
    · simp only [Option.some.injEq] at h
      subst h
      rw [heq] at hs
      exact hs
    · simp at h
  · simp at h

/-- A member: its name, a colon and its value, with white space before each, and what follows. -/
def readMember? (bs : Bytes) : Option ((String × String) × Bytes) := do
  let (name, rest) ← readString? (skipBlanks bs)
  let rest ← expect? (asciiByte ':') rest
  let (value, rest) ← readString? (skipBlanks rest)
  some ((name, value), rest)

theorem length_of_readMember? {bs rest : Bytes} {m : String × String}
    (h : readMember? bs = some (m, rest)) : rest.length < bs.length := by
  simp only [readMember?, Option.bind_eq_bind, Option.bind_eq_some_iff, Prod.exists,
    Option.some.injEq, Prod.mk.injEq] at h
  obtain ⟨_, r₁, h₁, r₂, h₂, _, r₃, h₃, _, rfl⟩ := h
  have := length_of_readString? h₁
  have := length_of_expect? h₂
  have := length_of_readString? h₃
  have := length_skipBlanks_le bs
  have := length_skipBlanks_le r₂
  omega

/-- The members from the first on, behind those in `done`, the latest first, up to the closing
brace. A comma is followed by a member. -/
def readMembersOnto (done : List (String × String)) (bs : Bytes) :
    Option (List (String × String) × Bytes) :=
  match _h : readMember? bs with
  | none => none
  | some (m, rest) =>
    match _hc : expect? (asciiByte ',') rest with
    | some rest' => readMembersOnto (m :: done) rest'
    | none => (expect? (asciiByte '}') rest).map ((m :: done).reverse, ·)
termination_by bs.length
decreasing_by
  have := length_of_readMember? _h
  have := length_of_expect? _hc
  omega

/-- The members of an object, behind its opening brace, and what follows its closing one. -/
def readMembers? (bs : Bytes) : Option (List (String × String) × Bytes) :=
  match expect? (asciiByte '}') bs with
  | some rest => some ([], rest)
  | none => readMembersOnto [] bs

/-- The members that a text begins with and what follows them: the letters `null` stand for none. -/
def readMap? (bs : Bytes) : Option (List (String × String) × Bytes) :=
  match skipBlanks bs with
  | b :: rest =>
    if b = asciiByte '\x7b' then readMembers? rest
    else
      match b :: rest with
      | 0x6E :: 0x75 :: 0x6C :: 0x6C :: after => some ([], after)
      | _ => none
  | [] => none

end Json

/-- The string map that a body begins with. -/
def StringMap.read? (body : Bytes) : Option StringMap :=
  (Json.readMap? body).map fun r => Dictionary.ofList r.1

end FrontDoor
