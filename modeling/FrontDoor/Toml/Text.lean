import FrontDoor.Text.Front

/-!
# Blanks, comments and strings in TOML

Strings come in four forms: basic ones with escapes and literal ones without, each on one line or on
several. Control characters other than the tab are allowed nowhere, and lines end in a line feed or
in a carriage return with one.
-/

namespace FrontDoor.Toml

/-- Space and tab. -/
def isBlank (c : Char) : Bool := c = ' ' || c = '\t'

/-- The characters of a line: all but the control characters, of which only the tab is one. -/
def isPlain (c : Char) : Bool := c = '\t' || (0x20 ≤ c.toNat && c.toNat ≠ 0x7F)

/-- What follows the blanks at the front. -/
def skipBlanks (cs : List Char) : List Char := cs.dropWhile isBlank

/-- What follows the end of a line at the front. -/
def newline? : List Char → Option (List Char)
  | '\n' :: cs => some cs
  | '\r' :: '\n' :: cs => some cs
  | _ => none

/-- What follows the blanks and ends of lines at the front. -/
def skipBlankLines : List Char → List Char
  | '\n' :: cs => skipBlankLines cs
  | '\r' :: '\n' :: cs => skipBlankLines cs
  | c :: cs => if isBlank c then skipBlankLines cs else c :: cs
  | [] => []

/-- What follows the blanks, comments and ends of lines at the front; `inComment` tells whether the
text begins within a comment. -/
def skipFiller (inComment : Bool) : List Char → List Char
  | '\n' :: cs => skipFiller false cs
  | '\r' :: '\n' :: cs => skipFiller false cs
  | c :: cs =>
    if inComment && isPlain c then skipFiller true cs
    else if c = '#' then skipFiller true cs
    else if isBlank c then skipFiller false cs
    else c :: cs
  | [] => []

/-- What follows the rest of a line that holds nothing but blanks and a comment. -/
def endLine? (cs : List Char) : Option (List Char) :=
  let rest := match skipBlanks cs with
    | '#' :: comment => comment.dropWhile isPlain
    | rest => rest
  if rest.isEmpty then some [] else newline? rest

/-! ## Escapes -/

/-- The character with the number that `n` hexadecimal digits spell, and what follows them. -/
def readCode? (n : Nat) (cs : List Char) : Option (Char × List Char) :=
  if cs.length < n then none
  else
    match Digits.value? 16 Digits.hexDigit? (cs.take n) with
    | some code => if code.isValidChar then some (Char.ofNat code, cs.drop n) else none
    | none => none

/-- The character of an escape behind its backslash, and what follows it. -/
def readEscape? : List Char → Option (Char × List Char)
  | 'b' :: cs => some ('\x08', cs)
  | 't' :: cs => some ('\t', cs)
  | 'n' :: cs => some ('\n', cs)
  | 'f' :: cs => some ('\x0c', cs)
  | 'r' :: cs => some ('\r', cs)
  | '"' :: cs => some ('"', cs)
  | '\\' :: cs => some ('\\', cs)
  | 'u' :: cs => readCode? 4 cs
  | 'U' :: cs => readCode? 8 cs
  | _ => none

theorem length_of_readCode? {n : Nat} {c : Char} {cs rest : List Char}
    (h : readCode? n cs = some (c, rest)) : rest.length ≤ cs.length := by
  unfold readCode? at h
  split at h
  · simp at h
  · split at h
    · split at h
      · simp only [Option.some.injEq, Prod.mk.injEq] at h
        obtain ⟨_, rfl⟩ := h
        simp
      · simp at h
    · simp at h

theorem length_of_readEscape? {c : Char} {cs rest : List Char}
    (h : readEscape? cs = some (c, rest)) : rest.length ≤ cs.length := by
  unfold readEscape? at h
  split at h
  case h_8 => exact Nat.le_succ_of_le (length_of_readCode? h)
  case h_9 => exact Nat.le_succ_of_le (length_of_readCode? h)
  case h_10 => simp at h
  all_goals
    simp only [Option.some.injEq, Prod.mk.injEq] at h
    obtain ⟨_, rfl⟩ := h
    simp

theorem length_skipBlankLines_le (cs : List Char) : (skipBlankLines cs).length ≤ cs.length := by
  fun_induction skipBlankLines cs with
  | case1 cs ih => exact Nat.le_succ_of_le ih
  | case2 cs ih => exact Nat.le_succ_of_le (Nat.le_succ_of_le ih)
  | case3 c cs _ _ _ ih => exact Nat.le_succ_of_le ih
  | case4 => exact Nat.le_refl _
  | case5 => exact Nat.le_refl _

theorem length_skipBlanks_le (cs : List Char) : (skipBlanks cs).length ≤ cs.length :=
  (List.dropWhile_sublist _).length_le

theorem length_of_newline? {cs rest : List Char} (h : newline? cs = some rest) :
    rest.length < cs.length := by
  unfold newline? at h
  split at h
  · cases h
    exact Nat.lt_succ_self _
  · cases h
    exact Nat.lt_succ_of_lt (Nat.lt_succ_self _)
  · cases h

/-! ## Basic strings -/

/-- A basic string behind its quote and the characters in `done`, the latest first. -/
def readBasicOnto (done : List Char) : List Char → Option (String × List Char)
  | [] => none
  | c :: cs =>
    if c = '"' then some (String.ofList done.reverse, cs)
    else if c = '\\' then
      match _h : readEscape? cs with
      | some (e, rest) => readBasicOnto (e :: done) rest
      | none => none
    else if isPlain c then readBasicOnto (c :: done) cs
    else none
termination_by cs => cs.length
decreasing_by
  · exact Nat.lt_succ_of_le (length_of_readEscape? _h)
  · simp

/-- The line ends that follow a backslash, with the blanks around them. -/
def continuation? (cs : List Char) : Option (List Char) :=
  (newline? (skipBlanks cs)).map skipBlankLines

theorem length_of_continuation? {cs rest : List Char} (h : continuation? cs = some rest) :
    rest.length ≤ cs.length := by
  obtain ⟨r, hr, rfl⟩ := Option.map_eq_some_iff.1 h
  have := length_of_newline? hr
  have := length_skipBlanks_le cs
  have := length_skipBlankLines_le r
  omega

/-- A number of quotes in front, and what follows them. -/
def splitQuotes (quote : Char) (cs : List Char) : Nat × List Char :=
  ((cs.takeWhile (· = quote)).length, cs.dropWhile (· = quote))

theorem length_splitQuotes_le (quote : Char) (cs : List Char) :
    (splitQuotes quote cs).2.length ≤ cs.length :=
  (List.dropWhile_sublist _).length_le

/-- How a run of quotes within a string on several lines goes on: up to two quotes belong to the
string, three end it, and up to two more before the three belong to it. -/
def closingQuotes? (run : Nat) : Option Nat := if 3 ≤ run ∧ run ≤ 5 then some (run - 3) else none

/-- A basic string on several lines behind its quotes and the characters in `done`. -/
def readLongBasicOnto (done : List Char) : List Char → Option (String × List Char)
  | [] => none
  | c :: cs =>
    if c = '"' then
      let run := (splitQuotes '"' cs).1 + 1
      match closingQuotes? run with
      | some n =>
        some (String.ofList (List.replicate n '"' ++ done).reverse, (splitQuotes '"' cs).2)
      | none =>
        if run < 3 then readLongBasicOnto (List.replicate run '"' ++ done) (splitQuotes '"' cs).2
        else none
    else if c = '\\' then
      match _h : continuation? cs with
      | some rest => readLongBasicOnto done rest
      | none =>
        match _h' : readEscape? cs with
        | some (e, rest) => readLongBasicOnto (e :: done) rest
        | none => none
    else if isPlain c then readLongBasicOnto (c :: done) cs
    else
      match _h : newline? (c :: cs) with
      | some rest => readLongBasicOnto ('\n' :: done) rest
      | none => none
termination_by cs => cs.length
decreasing_by
  · exact Nat.lt_succ_of_le (length_splitQuotes_le '"' cs)
  · exact Nat.lt_succ_of_le (length_of_continuation? _h)
  · exact Nat.lt_succ_of_le (length_of_readEscape? _h')
  · simp
  · exact length_of_newline? _h

/-! ## Literal strings -/

/-- A literal string behind its quote and the characters in `done`, the latest first. -/
def readLiteralOnto (done : List Char) : List Char → Option (String × List Char)
  | [] => none
  | c :: cs =>
    if c = '\'' then some (String.ofList done.reverse, cs)
    else if isPlain c then readLiteralOnto (c :: done) cs
    else none

/-- A literal string on several lines behind its quotes and the characters in `done`. -/
def readLongLiteralOnto (done : List Char) : List Char → Option (String × List Char)
  | [] => none
  | c :: cs =>
    if c = '\'' then
      let run := (splitQuotes '\'' cs).1 + 1
      match closingQuotes? run with
      | some n =>
        some (String.ofList (List.replicate n '\'' ++ done).reverse, (splitQuotes '\'' cs).2)
      | none =>
        if run < 3 then
          readLongLiteralOnto (List.replicate run '\'' ++ done) (splitQuotes '\'' cs).2
        else none
    else if isPlain c then readLongLiteralOnto (c :: done) cs
    else
      match _h : newline? (c :: cs) with
      | some rest => readLongLiteralOnto ('\n' :: done) rest
      | none => none
termination_by cs => cs.length
decreasing_by
  · exact Nat.lt_succ_of_le (length_splitQuotes_le '\'' cs)
  · simp
  · exact length_of_newline? _h

/-! ## Strings -/

/-- What follows the end of a line at the front, if there is one. -/
def skipNewline (cs : List Char) : List Char := (newline? cs).getD cs

/-- A string of any form, and what follows it. -/
def readString? : List Char → Option (String × List Char)
  | '"' :: '"' :: '"' :: cs => readLongBasicOnto [] (skipNewline cs)
  | '"' :: cs => readBasicOnto [] cs
  | '\'' :: '\'' :: '\'' :: cs => readLongLiteralOnto [] (skipNewline cs)
  | '\'' :: cs => readLiteralOnto [] cs
  | _ => none

/-- A character as a basic string writes it. -/
def writeChar (c : Char) : List Char :=
  if c = '"' ∨ c = '\\' then ['\\', c]
  else if isPlain c then [c]
  else '\\' :: 'u' :: (List.replicate (4 - (Digits.hex c.toNat).length) '0' ++ Digits.hex c.toNat)

/-- The basic string that spells a text. -/
def writeString (s : String) : List Char := '"' :: s.toList.flatMap writeChar ++ ['"']

end FrontDoor.Toml
