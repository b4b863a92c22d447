import FrontDoor.Json.StringMap
import FrontDoor.Proofs.Json.HtmlSafe

/-!
# Reading documents back

A dialect is legible when a reader of strings takes each of its characters for what it is. Then a
whole document of it is read back to its entries, and what follows the document is left alone
(`readMap?_stringObjectText`). Both the plain dialect and the one that is safe inside HTML are
legible.
-/

namespace FrontDoor.Json

open String (utf8EncodeChar)

/-! ## Strings -/

theorem readStringOnto_quote (done : List Char) (bs : Bytes) :
    readStringOnto done (asciiByte '"' :: bs) = some (String.ofList done.reverse, bs) := by
  rw [readStringOnto, if_pos rfl]

theorem readStringOnto_escape (done : List Char) {bs rest : Bytes} {c : Char}
    (h : readEscape? bs = some (c, rest)) :
    readStringOnto done (asciiByte '\\' :: bs) = readStringOnto (c :: done) rest := by
  rw [readStringOnto, if_neg (by decide), if_pos rfl]
  split
  · next h' =>
    rw [h, Option.some.injEq, Prod.mk.injEq] at h'
    obtain ⟨rfl, rfl⟩ := h'
    rfl
  · next h' =>
    rw [h] at h'
    cases h'

theorem readStringOnto_char (done : List Char) {c : Char} (h₁ : c ≠ '"') (h₂ : c ≠ '\\')
    (h₃ : 0x20 ≤ c.toNat) (bs : Bytes) :
    readStringOnto done (utf8EncodeChar c ++ bs) = readStringOnto (c :: done) bs := by
  cases hb : utf8EncodeChar c with
  | nil => exact absurd hb String.utf8EncodeChar_ne_nil
  | cons b tail =>
    have hnext : Utf8.next b (tail ++ bs) = (some c, bs) :=
      Utf8.next_of_encodeChar (by rw [hb]; rfl)
    -- An ASCII byte can only begin the character that it is.
    have hascii : b.toNat < 0x80 → c = Char.ofNat b.toNat := by
      intro hlt
      rw [Utf8.next_ascii hlt] at hnext
      exact (Option.some.inj (Prod.mk.inj hnext).1).symm
    rw [List.cons_append, readStringOnto, if_neg, if_neg, if_neg]
    · split
      · next h' =>
        rw [hnext, Prod.mk.injEq, Option.some.injEq] at h'
        obtain ⟨rfl, rfl⟩ := h'
        rfl
      · next h' =>
        rw [hnext] at h'
        cases h'
    · intro hlt
      have hc := hascii (by omega)
      rw [hc, Utf8.toNat_ofNat_of_isValidChar (.inl (by omega))] at h₃
      omega
    · rintro rfl
      exact h₂ (hascii (by decide))
    · rintro rfl
      exact h₁ (hascii (by decide))

theorem readEscape?_short {c d : Char} (h : (c, d) ∈ shortEscapes) (bs : Bytes) :
    readEscape? (asciiByte d :: bs) = some (c, bs) := by
  have hall : ∀ s ∈ shortEscapes, asciiByte s.2 ≠ asciiByte 'u' ∧
      shortEscape? (asciiByte s.2) = some s.1 := by decide
  obtain ⟨hu, hshort⟩ := hall _ h
  rw [readEscape?, if_neg hu, hshort]
  rfl

/-- An escape of four digits that is no surrogate. -/
theorem readEscape?_unicode {w x y z : Char} {n : Nat} (hn : n < 0xD800)
    (h : Digits.value? 16 Digits.hexDigit?
      ([asciiByte w, asciiByte x, asciiByte y, asciiByte z].map fun b => Char.ofNat b.toNat)
        = some n) (bs : Bytes) :
    readEscape? (asciiByte 'u' :: asciiByte w :: asciiByte x :: asciiByte y :: asciiByte z :: bs) =
      some (Char.ofNat n, bs) := by
  have hhex : readHex4? (asciiByte w :: asciiByte x :: asciiByte y :: asciiByte z :: bs) =
      some (n, bs) := by
    rw [readHex4?, h]
    rfl
  rw [readEscape?, if_pos rfl, readUnicode?, hhex]
  dsimp only
  rw [if_neg (by omega), if_neg (by omega)]

theorem readStringOnto_escaped (done : List Char) {c : Char} {e : List Char}
    (h : escape? c = some e) (bs : Bytes) :
    readStringOnto done (Utf8.encode e ++ bs) = readStringOnto (c :: done) bs := by
  rcases escape?_eq_some h with ⟨d, hd, rfl⟩ | ⟨hlt, rfl⟩
  · have hascii : ∀ s ∈ shortEscapes,
        Utf8.encode ['\\', s.2] = [asciiByte '\\', asciiByte s.2] := by decide
    rw [hascii _ hd]
    exact readStringOnto_escape done (readEscape?_short hd bs)
  · have hascii : ∀ n < 0x20, Utf8.encode ('\\' :: 'u' :: '0' :: '0' :: twoHexDigits n) =
        [asciiByte '\\', asciiByte 'u', asciiByte '0', asciiByte '0',
          asciiByte (Nat.digitChar (n / 16)), asciiByte (Nat.digitChar (n % 16))] := by decide
    have hvalue : ∀ n < 0x20, Digits.value? 16 Digits.hexDigit?
        ([asciiByte '0', asciiByte '0', asciiByte (Nat.digitChar (n / 16)),
          asciiByte (Nat.digitChar (n % 16))].map fun b => Char.ofNat b.toNat) = some n := by decide
    rw [hascii _ hlt]
    have hread := readEscape?_unicode (by omega) (hvalue _ hlt) bs
    rw [Char.ofNat_toNat] at hread
    exact readStringOnto_escape done hread

/-- Whether each character that JSON does not escape is read from what the dialect writes for it. -/
def Legible (dialect : Char → List Char) : Prop :=
  ∀ c, escape? c = none → ∀ done bs,
    readStringOnto done (Utf8.encode (dialect c) ++ bs) = readStringOnto (c :: done) bs

theorem legible_plain : Legible fun c => [c] := by
  intro c h done bs
  obtain ⟨h₁, h₂, h₃⟩ := escape?_eq_none h
  rw [Utf8.encode_singleton]
  exact readStringOnto_char done h₁ h₂ h₃ bs

theorem HtmlSafe.legible_replaced : Legible HtmlSafe.replaced := by
  intro c h done bs
  unfold HtmlSafe.replaced
  cases hr : HtmlSafe.replacement? c with
  | some r =>
    have hmem := HtmlSafe.replacement?_eq_some hr
    simp only [HtmlSafe.replacements, List.mem_cons, Prod.mk.injEq, List.not_mem_nil,
      or_false] at hmem
    rcases hmem with ⟨rfl, rfl⟩ | ⟨rfl, rfl⟩ | ⟨rfl, rfl⟩ | ⟨rfl, rfl⟩ | ⟨rfl, rfl⟩ <;>
      exact readStringOnto_escape done (readEscape?_unicode (by decide) (by decide) bs)
  | none =>
    exact legible_plain c h done bs

variable {dialect : Char → List Char}

theorem readStringOnto_written (h : Legible dialect) (done : List Char) (c : Char) (bs : Bytes) :
    readStringOnto done (Utf8.encode (written dialect c) ++ bs) =
      readStringOnto (c :: done) bs := by
  unfold written
  cases he : escape? c with
  | some e => exact readStringOnto_escaped done he bs
  | none => exact h c he done bs

theorem readStringOnto_text (h : Legible dialect) (done cs : List Char) (bs : Bytes) :
    readStringOnto done (Utf8.encode (cs.flatMap (written dialect)) ++ bs) =
      readStringOnto (cs.reverse ++ done) bs := by
  induction cs generalizing done with
  | nil => rfl
  | cons c cs ih =>
    rw [List.flatMap_cons, Utf8.encode_append, List.append_assoc, readStringOnto_written h, ih,
      List.reverse_cons, List.append_assoc]
    rfl

theorem encode_quoted_append (s : String) (bs : Bytes) :
    Utf8.encode (quoted dialect s) ++ bs = asciiByte '"' ::
      (Utf8.encode (s.toList.flatMap (written dialect)) ++ (asciiByte '"' :: bs)) := by
  have hquote : String.utf8EncodeChar '"' = [asciiByte '"'] := Utf8.encodeChar_ascii (by decide)
  rw [quoted, Utf8.encode_cons, Utf8.encode_append, Utf8.encode_cons, hquote, List.append_assoc,
    List.append_assoc]
  rfl

theorem readString?_quoted (h : Legible dialect) (s : String) (bs : Bytes) :
    readString? (Utf8.encode (quoted dialect s) ++ bs) = some (s, bs) := by
  rw [encode_quoted_append, readString?, if_pos rfl, readStringOnto_text h, readStringOnto_quote,
    List.append_nil, List.reverse_reverse, String.ofList_toList]

/-! ## Members -/

theorem skipBlanks_quoted (s : String) (bs : Bytes) :
    skipBlanks (Utf8.encode (quoted dialect s) ++ bs) = Utf8.encode (quoted dialect s) ++ bs := by
  rw [encode_quoted_append]
  exact List.dropWhile_cons_of_neg (by decide)

theorem expect?_of_not_blank {b b' : UInt8} (h : isBlank b' = false) (bs : Bytes) :
    expect? b (b' :: bs) = if b' = b then some bs else none := by
  have hskip : skipBlanks (b' :: bs) = b' :: bs :=
    List.dropWhile_cons_of_neg (by rw [h]; exact Bool.false_ne_true)
  rw [expect?, hskip]

theorem expect?_self {b : UInt8} (h : isBlank b = false) (bs : Bytes) :
    expect? b (b :: bs) = some bs := by
  rw [expect?_of_not_blank h, if_pos rfl]

theorem expect?_of_ne {b b' : UInt8} (h : isBlank b' = false) (hne : b' ≠ b) (bs : Bytes) :
    expect? b (b' :: bs) = none := by
  rw [expect?_of_not_blank h, if_neg hne]

/-- A member as it is written. -/
def entryText (dialect : Char → List Char) (e : String × String) : List Char :=
  memberText (quoted dialect e.1, quoted dialect e.2)

theorem readMember?_entry (h : Legible dialect) (e : String × String) (bs : Bytes) :
    readMember? (Utf8.encode (entryText dialect e) ++ bs) = some (e, bs) := by
  have hcolon : String.utf8EncodeChar ':' = [asciiByte ':'] := Utf8.encodeChar_ascii (by decide)
  rw [entryText, memberText, Utf8.encode_append, Utf8.encode_cons, hcolon, List.append_assoc,
    List.append_assoc, List.singleton_append, readMember?, skipBlanks_quoted, readString?_quoted h]
  simp only [Option.bind_eq_bind, Option.bind_some]
  rw [expect?_self (by decide)]
  simp only [Option.bind_some]
  rw [skipBlanks_quoted, readString?_quoted h]
  rfl

theorem readMembersOnto_comma (done : List (String × String)) {bs rest rest' : Bytes}
    {m : String × String} (h : readMember? bs = some (m, rest))
    (hcomma : expect? (asciiByte ',') rest = some rest') :
    readMembersOnto done bs = readMembersOnto (m :: done) rest' := by
  rw [readMembersOnto]
  split
  · next h' =>
    rw [h] at h'
    cases h'
  · next h' =>
    rw [h] at h'
    cases h'
    split
    · next hc =>
      rw [hcomma] at hc
      cases hc
      rfl
    · next hc =>
      rw [hcomma] at hc
      cases hc

theorem readMembersOnto_close (done : List (String × String)) {bs rest : Bytes}
    {m : String × String} (h : readMember? bs = some (m, rest))
    (hcomma : expect? (asciiByte ',') rest = none) :
    readMembersOnto done bs =
      (expect? (asciiByte '\x7d') rest).map ((m :: done).reverse, ·) := by
  rw [readMembersOnto]
  split
  · next h' =>
    rw [h] at h'
    cases h'
  · next h' =>
    rw [h] at h'
    cases h'
    split
    · next hc =>
      rw [hcomma] at hc
      cases hc
    · rfl

/-- The members after those in `done`, up to the closing brace. -/
theorem readMembersOnto_entries (h : Legible dialect) (done : List (String × String))
    (e : String × String) (entries : List (String × String)) (bs : Bytes) :
    readMembersOnto done (Utf8.encode (((e :: entries).map (entryText dialect)).intersperse
        [',']).flatten ++ asciiByte '\x7d' :: bs) =
      some (done.reverse ++ e :: entries, bs) := by
  have hcomma : Utf8.encode [','] = [asciiByte ','] := by decide
  induction entries generalizing done e with
  | nil =>
    rw [List.map_singleton, List.intersperse_singleton, List.flatten_singleton,
      readMembersOnto_close done (readMember?_entry h e _)
        (expect?_of_ne (by decide) (by decide) bs),
      expect?_self (by decide), List.reverse_cons]
    rfl
  | cons e' entries ih =>
    rw [List.map_cons, List.map_cons, List.intersperse_cons_cons, List.flatten_cons,
      List.flatten_cons, Utf8.encode_append, Utf8.encode_append, hcomma, List.append_assoc,
      List.append_assoc, List.singleton_append,
      readMembersOnto_comma done (readMember?_entry h e _) (expect?_self (by decide) _),
      ← List.map_cons, ih, List.reverse_cons, List.append_assoc]
    rfl

/-! ## Objects -/

/-- What stands behind the opening brace of a document with entries is a quote. -/
theorem exists_entries_eq (dialect : Char → List Char) (e : String × String)
    (entries : List (String × String)) :
    ∃ tail, Utf8.encode (((e :: entries).map (entryText dialect)).intersperse [',']).flatten =
      asciiByte '"' :: tail := by
  have hentry : ∃ tail, Utf8.encode (entryText dialect e) = asciiByte '"' :: tail := by
    rw [entryText, memberText, Utf8.encode_append, encode_quoted_append]
    exact ⟨_, rfl⟩
  obtain ⟨tail, htail⟩ := hentry
  cases entries with
  | nil =>
    rw [List.map_singleton, List.intersperse_singleton, List.flatten_singleton, htail]
    exact ⟨_, rfl⟩
  | cons e' entries =>
    rw [List.map_cons, List.map_cons, List.intersperse_cons_cons, List.flatten_cons,
      Utf8.encode_append, htail]
    exact ⟨_, rfl⟩

/-- A document of strings is read back to its entries, whatever follows it. -/
theorem readMap?_stringObjectText (h : Legible dialect) (entries : List (String × String))
    (bs : Bytes) :
    readMap? (Utf8.encode (stringObjectText dialect entries) ++ bs) = some (entries, bs) := by
  have hopen : String.utf8EncodeChar '\x7b' = [asciiByte '\x7b'] :=
    Utf8.encodeChar_ascii (by decide)
  have hclose : Utf8.encode ['\x7d'] = [asciiByte '\x7d'] := by decide
  have hskip : ∀ bs, skipBlanks (asciiByte '\x7b' :: bs) = asciiByte '\x7b' :: bs := fun bs =>
    List.dropWhile_cons_of_neg (by decide)
  have hentry : (memberText ∘ fun e => (quoted dialect e.1, quoted dialect e.2)) =
      entryText dialect := rfl
  rw [stringObjectText, objectText, List.map_map, hentry, Utf8.encode_cons, Utf8.encode_append,
    hopen, hclose, List.singleton_append, List.cons_append, List.append_assoc,
    List.singleton_append, readMap?, hskip]
  dsimp only
  rw [if_pos rfl, readMembers?]
  -- The brace may close at once; in front of a member it does not.
  cases entries with
  | nil =>
    rw [List.map_nil, List.intersperse_nil, List.flatten_nil, Utf8.encode, List.flatMap_nil,
      List.nil_append, expect?_self (by decide)]
  | cons e entries =>
    obtain ⟨tail, htail⟩ := exists_entries_eq dialect e entries
    have hmore : expect? (asciiByte '\x7d') (Utf8.encode (((e :: entries).map
        (entryText dialect)).intersperse [',']).flatten ++ asciiByte '\x7d' :: bs) = none := by
      rw [htail, List.cons_append, expect?_of_ne (by decide) (by decide)]
    rw [hmore]
    exact readMembersOnto_entries h [] e entries bs

/-- What is written for a list of entries is read as their dictionary. -/
theorem read?_stringObject {fragment : List Char → Bytes} (hs : Speaks fragment dialect)
    (hl : Legible dialect) (entries : List (String × String)) (bs : Bytes) :
    StringMap.read? (stringObject fragment entries ++ bs) = some (Dictionary.ofList entries) := by
  rw [StringMap.read?, stringObject_eq_encode hs, readMap?_stringObjectText hl]
  rfl

theorem HtmlSafe.read?_encode (entries : List (String × String)) (bs : Bytes) :
    StringMap.read? (HtmlSafe.encode entries ++ bs) = some (Dictionary.ofList entries) :=
  read?_stringObject HtmlSafe.speaks_fragment HtmlSafe.legible_replaced entries bs

end FrontDoor.Json
