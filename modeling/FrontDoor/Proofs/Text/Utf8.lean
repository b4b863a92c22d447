import FrontDoor.Text.Utf8

/-!
# Reading and writing UTF-8

The reader takes a character off the front exactly where the bytes of that character stand
(`next_of_encodeChar`, `encodeChar_of_next`). Hence a text is read back from its bytes
(`lossy_encode`, `valid_encode`), bytes are well formed only when they are the bytes of a text
(`encode_lossy`), and ASCII is transparent: what the lossy text says about ASCII at its front, the
bytes say as well (`prefix_lossy_iff`).
-/

namespace FrontDoor.Utf8

open String (utf8EncodeChar)

/-! ## The bytes of a character -/

/-- The byte that carries the last six bits of a number behind a first byte. -/
def tailByte (n : Nat) : UInt8 := UInt8.ofNat (n % 0x40 + 0x80)

theorem toNat_tailByte (n : Nat) : (tailByte n).toNat = n % 0x40 + 0x80 := by
  rw [tailByte, UInt8.toNat_ofNat']
  omega

theorem toNat_ofNat_of_isValidChar {n : Nat} (h : n.isValidChar) : (Char.ofNat n).toNat = n := by
  rw [Char.ofNat, dif_pos h]
  rfl

theorem isValidChar_toNat (c : Char) : c.toNat.isValidChar := c.valid

theorem encodeChar_one {c : Char} (h : c.toNat < 0x80) :
    utf8EncodeChar c = [UInt8.ofNat c.toNat] := by
  unfold utf8EncodeChar
  exact if_pos (by change c.toNat ≤ 0x7f; omega)

theorem encodeChar_two {c : Char} (h : 0x80 ≤ c.toNat) (h' : c.toNat < 0x800) :
    utf8EncodeChar c = [UInt8.ofNat (c.toNat / 0x40 + 0xC0), tailByte c.toNat] := by
  have hv : c.val.toNat = c.toNat := rfl
  simp only [utf8EncodeChar, hv]
  rw [if_neg (by omega), if_pos (by omega), Nat.mod_eq_of_lt (by omega)]
  rfl

theorem encodeChar_three {c : Char} (h : 0x800 ≤ c.toNat) (h' : c.toNat < 0x10000) :
    utf8EncodeChar c =
      [UInt8.ofNat (c.toNat / 0x1000 + 0xE0), tailByte (c.toNat / 0x40), tailByte c.toNat] := by
  have hv : c.val.toNat = c.toNat := rfl
  simp only [utf8EncodeChar, hv]
  rw [if_neg (by omega), if_neg (by omega), if_pos (by omega),
    Nat.mod_eq_of_lt (show c.toNat / 4096 < 16 by omega)]
  rfl

theorem encodeChar_four {c : Char} (h : 0x10000 ≤ c.toNat) :
    utf8EncodeChar c =
      [UInt8.ofNat (c.toNat / 0x40000 + 0xF0), tailByte (c.toNat / 0x1000),
        tailByte (c.toNat / 0x40), tailByte c.toNat] := by
  have hv : c.val.toNat = c.toNat := rfl
  have hlt : c.toNat < 0x110000 := by rcases isValidChar_toNat c with h | h <;> omega
  simp only [utf8EncodeChar, hv]
  rw [if_neg (by omega), if_neg (by omega), if_neg (by omega),
    Nat.mod_eq_of_lt (show c.toNat / 262144 < 8 by omega)]
  rfl

theorem tailByte_mul_add (n m : Nat) : tailByte (n * 64 + m) = tailByte m := by
  rw [tailByte, tailByte, show (n * 64 + m) % 0x40 = m % 0x40 by omega]

/-- The bytes of a character by its digits in base 64. -/
theorem encodeChar_ofNat_two {n m : Nat} (h : 2 ≤ n) (h' : n < 0x20) (hm : m < 0x40) :
    utf8EncodeChar (Char.ofNat (n * 64 + m)) = [UInt8.ofNat (n + 0xC0), tailByte m] := by
  have hc := toNat_ofNat_of_isValidChar (n := n * 64 + m) (.inl (by omega))
  rw [encodeChar_two (by omega) (by omega), hc, tailByte_mul_add,
    show (n * 64 + m) / 0x40 = n by omega]

theorem encodeChar_ofNat_three {n m k : Nat} (hn : n < 0x10) (hm : m < 0x40) (hk : k < 0x40)
    (hlow : 0x800 ≤ (n * 64 + m) * 64 + k) (hgap : n = 0xD → m < 0x20) :
    utf8EncodeChar (Char.ofNat ((n * 64 + m) * 64 + k)) =
      [UInt8.ofNat (n + 0xE0), tailByte m, tailByte k] := by
  have hvalid : ((n * 64 + m) * 64 + k).isValidChar := by
    rcases Nat.lt_trichotomy n 0xD with h | h | h
    · exact .inl (by omega)
    · exact .inl (by have := hgap h; omega)
    · exact .inr ⟨by omega, by omega⟩
  have hc := toNat_ofNat_of_isValidChar hvalid
  rw [encodeChar_three (by omega) (by omega), hc, tailByte_mul_add,
    show ((n * 64 + m) * 64 + k) / 0x40 = n * 64 + m by omega, tailByte_mul_add,
    show ((n * 64 + m) * 64 + k) / 0x1000 = n by omega]

theorem encodeChar_ofNat_four {n m k j : Nat} (hm : m < 0x40) (hk : k < 0x40) (hj : j < 0x40)
    (hlow : 0x10000 ≤ ((n * 64 + m) * 64 + k) * 64 + j)
    (hhigh : ((n * 64 + m) * 64 + k) * 64 + j < 0x110000) :
    utf8EncodeChar (Char.ofNat (((n * 64 + m) * 64 + k) * 64 + j)) =
      [UInt8.ofNat (n + 0xF0), tailByte m, tailByte k, tailByte j] := by
  have hc := toNat_ofNat_of_isValidChar (n := ((n * 64 + m) * 64 + k) * 64 + j)
    (.inr ⟨by omega, by omega⟩)
  rw [encodeChar_four (by omega), hc, tailByte_mul_add,
    show (((n * 64 + m) * 64 + k) * 64 + j) / 0x40 = (n * 64 + m) * 64 + k by omega,
    tailByte_mul_add,
    show (((n * 64 + m) * 64 + k) * 64 + j) / 0x1000 = n * 64 + m by omega, tailByte_mul_add,
    show (((n * 64 + m) * 64 + k) * 64 + j) / 0x40000 = n by omega]

/-! ## One character -/

theorem readTails_tailByte {low high : Nat} (n bits m : Nat) (bs : Bytes)
    (hl : low ≤ m % 0x40 + 0x80) (hh : m % 0x40 + 0x80 ≤ high) :
    readTails low high (n + 1) bits (tailByte m :: bs) =
      readTails 0x80 0xBF n (bits * 64 + m % 0x40) bs := by
  rw [readTails, if_pos (by rw [toNat_tailByte]; exact ⟨hl, hh⟩), toNat_tailByte,
    Nat.add_sub_cancel]

theorem exists_of_readTails_succ {low high n bits : Nat} {bs rest : Bytes} {c : Char}
    (h₀ : 0x80 ≤ low) (h₁ : high ≤ 0xBF)
    (h : readTails low high (n + 1) bits bs = (some c, rest)) :
    ∃ m bs', m < 0x40 ∧ low ≤ m + 0x80 ∧ m + 0x80 ≤ high ∧ bs = tailByte m :: bs' ∧
      readTails 0x80 0xBF n (bits * 64 + m) bs' = (some c, rest) := by
  cases bs with
  | nil => simp [readTails] at h
  | cons b bs =>
    rw [readTails] at h
    split at h
    · next hb =>
      refine ⟨b.toNat - 0x80, bs, by omega, by omega, by omega, ?_, h⟩
      rw [tailByte, Nat.mod_eq_of_lt (by omega), Nat.sub_add_cancel (by omega), UInt8.ofNat_toNat]
    · simp at h

theorem next_ascii {b : UInt8} (h : b.toNat < 0x80) (bs : Bytes) :
    next b bs = (some (Char.ofNat b.toNat), bs) := by
  rw [next, lead?, if_pos h]
  rfl

theorem lead?_two {n : Nat} (h : 2 ≤ n) (h' : n < 0x20) :
    lead? (n + 0xC0) = some ⟨1, 0x80, 0xBF, n⟩ := by
  rw [lead?, if_neg (by omega), if_neg (by omega), if_pos (by omega), Nat.add_sub_cancel]

/-- Behind `E0` overlong forms are left out, behind `ED` the surrogates. -/
theorem lead?_three {n : Nat} (h : n < 0x10) :
    lead? (n + 0xE0) =
      some ⟨2, if n = 0 then 0xA0 else 0x80, if n = 0xD then 0x9F else 0xBF, n⟩ := by
  rw [lead?, if_neg (by omega), if_neg (by omega), if_neg (by omega)]
  by_cases h₀ : n = 0
  · subst h₀; rfl
  by_cases hD : n = 0xD
  · subst hD; rfl
  rw [if_neg (by omega), if_neg (by omega), if_pos (by omega), if_neg h₀, if_neg hD,
    Nat.add_sub_cancel]

/-- Behind `F0` overlong forms are left out, behind `F4` the numbers above the last character. -/
theorem lead?_four {n : Nat} (h : n < 5) :
    lead? (n + 0xF0) =
      some ⟨3, if n = 0 then 0x90 else 0x80, if n = 4 then 0x8F else 0xBF, n⟩ := by
  match n, h with
  | 0, _ | 1, _ | 2, _ | 3, _ | 4, _ => rfl

/-- What a first byte is, if it is one. -/
theorem lead?_cases {b : Nat} {l : Lead} (h : lead? b = some l) :
    b < 0x80 ∨ (∃ n, 2 ≤ n ∧ n < 0x20 ∧ b = n + 0xC0) ∨ (∃ n, n < 0x10 ∧ b = n + 0xE0) ∨
      ∃ n, n < 5 ∧ b = n + 0xF0 := by
  by_cases h₁ : b < 0x80
  · exact .inl h₁
  by_cases h₂ : 0xC2 ≤ b ∧ b < 0xE0
  · exact .inr (.inl ⟨b - 0xC0, by omega, by omega, by omega⟩)
  by_cases h₃ : 0xE0 ≤ b ∧ b < 0xF0
  · exact .inr (.inr (.inl ⟨b - 0xE0, by omega, by omega⟩))
  by_cases h₄ : 0xF0 ≤ b ∧ b < 0xF5
  · exact .inr (.inr (.inr ⟨b - 0xF0, by omega, by omega⟩))
  · rw [lead?, if_neg h₁] at h
    by_cases hC : b < 0xC2
    · rw [if_pos hC] at h; simp at h
    · rw [if_neg hC, if_neg (by omega), if_neg (by omega), if_neg (by omega), if_neg (by omega),
        if_neg (by omega), if_neg (by omega), if_neg (by omega)] at h
      simp at h

theorem toNat_ofNat_lead {n : Nat} (h : n < 0x100) : (UInt8.ofNat n).toNat = n := by
  rw [UInt8.toNat_ofNat']
  omega

theorem next_of_encodeChar {b : UInt8} {bs rest : Bytes} {c : Char}
    (h : b :: bs = utf8EncodeChar c ++ rest) : next b bs = (some c, rest) := by
  have hv := isValidChar_toNat c
  by_cases h₁ : c.toNat < 0x80
  · rw [encodeChar_one h₁] at h
    obtain ⟨rfl, rfl⟩ := List.cons.inj h
    have hb := toNat_ofNat_lead (show c.toNat < 0x100 by omega)
    rw [next_ascii (by omega), hb, Char.ofNat_toNat]
  by_cases h₂ : c.toNat < 0x800
  · simp only [encodeChar_two (by omega) h₂, List.cons_append, List.nil_append] at h
    obtain ⟨rfl, rfl⟩ := List.cons.inj h
    rw [next, toNat_ofNat_lead (by omega), lead?_two (by omega) (by omega)]
    simp only
    rw [readTails_tailByte _ _ _ _ (by omega) (by omega), readTails,
      show c.toNat / 0x40 * 64 + c.toNat % 0x40 = c.toNat by omega, Char.ofNat_toNat]
  by_cases h₃ : c.toNat < 0x10000
  · simp only [encodeChar_three (by omega) h₃, List.cons_append, List.nil_append] at h
    obtain ⟨rfl, rfl⟩ := List.cons.inj h
    rw [next, toNat_ofNat_lead (by omega), lead?_three (by omega)]
    simp only
    rw [readTails_tailByte _ _ _ _ (by split <;> omega)
        (by split <;> rcases hv with hv | hv <;> omega),
      readTails_tailByte _ _ _ _ (by omega) (by omega), readTails,
      show (c.toNat / 0x1000 * 64 + c.toNat / 0x40 % 0x40) * 64 + c.toNat % 0x40 = c.toNat by omega,
      Char.ofNat_toNat]
  · have hlt : c.toNat < 0x110000 := by rcases hv with hv | hv <;> omega
    simp only [encodeChar_four (show 0x10000 ≤ c.toNat by omega), List.cons_append,
      List.nil_append] at h
    obtain ⟨rfl, rfl⟩ := List.cons.inj h
    rw [next, toNat_ofNat_lead (by omega), lead?_four (by omega)]
    simp only
    rw [readTails_tailByte _ _ _ _ (by split <;> omega) (by split <;> omega),
      readTails_tailByte _ _ _ _ (by omega) (by omega),
      readTails_tailByte _ _ _ _ (by omega) (by omega), readTails,
      show ((c.toNat / 0x40000 * 64 + c.toNat / 0x1000 % 0x40) * 64 + c.toNat / 0x40 % 0x40) * 64
        + c.toNat % 0x40 = c.toNat by omega,
      Char.ofNat_toNat]

theorem encodeChar_of_next {b : UInt8} {bs rest : Bytes} {c : Char}
    (h : next b bs = (some c, rest)) : b :: bs = utf8EncodeChar c ++ rest := by
  rcases hl : lead? b.toNat with _ | l
  · simp [next, hl] at h
  have hb : UInt8.ofNat b.toNat = b := UInt8.ofNat_toNat
  rcases lead?_cases hl with h₁ | ⟨n, h₂, h₂', hn⟩ | ⟨n, h₃, hn⟩ | ⟨n, h₄, hn⟩
  · rw [next_ascii h₁, Prod.mk.injEq, Option.some.injEq] at h
    obtain ⟨rfl, rfl⟩ := h
    have hc := toNat_ofNat_of_isValidChar (n := b.toNat) (.inl (by omega))
    rw [encodeChar_one (by omega), hc, hb, List.singleton_append]
  · simp only [next, hn, lead?_two h₂ h₂'] at h
    obtain ⟨m, bs, hm, -, -, rfl, h'⟩ := exists_of_readTails_succ (by omega) (by omega) h
    rw [readTails, Prod.mk.injEq, Option.some.injEq] at h'
    obtain ⟨rfl, rfl⟩ := h'
    rw [encodeChar_ofNat_two h₂ h₂' hm, ← hn, hb]
    rfl
  · simp only [next, hn, lead?_three h₃] at h
    obtain ⟨m, bs, hm, hlo, hhi, rfl, h'⟩ :=
      exists_of_readTails_succ (by split <;> omega) (by split <;> omega) h
    obtain ⟨k, bs, hk, -, -, rfl, h''⟩ := exists_of_readTails_succ (by omega) (by omega) h'
    rw [readTails, Prod.mk.injEq, Option.some.injEq] at h''
    obtain ⟨rfl, rfl⟩ := h''
    rw [encodeChar_ofNat_three h₃ hm hk (by split at hlo <;> omega)
      (by intro hD; rw [if_pos hD] at hhi; omega), ← hn, hb]
    rfl
  · simp only [next, hn, lead?_four h₄] at h
    obtain ⟨m, bs, hm, hlo, hhi, rfl, h'⟩ :=
      exists_of_readTails_succ (by split <;> omega) (by split <;> omega) h
    obtain ⟨k, bs, hk, -, -, rfl, h''⟩ := exists_of_readTails_succ (by omega) (by omega) h'
    obtain ⟨j, bs, hj, -, -, rfl, h'''⟩ := exists_of_readTails_succ (by omega) (by omega) h''
    rw [readTails, Prod.mk.injEq, Option.some.injEq] at h'''
    obtain ⟨rfl, rfl⟩ := h'''
    rw [encodeChar_ofNat_four hm hk hj (by split at hlo <;> omega) (by split at hhi <;> omega),
      ← hn, hb]
    rfl

/-! ## Texts -/

theorem readOnto_eq (done : List (Option Char)) (bs : Bytes) :
    readOnto done bs = done.reverse ++ read bs := by
  induction hn : bs.length using Nat.strongRecOn generalizing done bs with
  | ind n ih =>
    cases bs with
    | nil => simp [read, readOnto]
    | cons b bs =>
      have hlt : (next b bs).2.length < n := by
        rw [← hn]; exact Nat.lt_succ_of_le (length_next_le b bs)
      rw [read, readOnto, readOnto, ih _ hlt _ _ rfl, ih _ hlt [_] _ rfl]
      simp

@[simp] theorem read_nil : read [] = [] := by rw [read, readOnto]; rfl

theorem read_cons (b : UInt8) (bs : Bytes) :
    read (b :: bs) = (next b bs).1 :: read (next b bs).2 := by
  rw [read, readOnto, readOnto_eq]
  rfl

theorem read_encodeChar_append (c : Char) (bs : Bytes) :
    read (utf8EncodeChar c ++ bs) = some c :: read bs := by
  cases h : utf8EncodeChar c with
  | nil => exact absurd h String.utf8EncodeChar_ne_nil
  | cons b tail =>
    have hnext : next b (tail ++ bs) = (some c, bs) := next_of_encodeChar (by rw [h]; rfl)
    rw [List.cons_append, read_cons, hnext]

theorem encode_cons (c : Char) (cs : List Char) :
    encode (c :: cs) = utf8EncodeChar c ++ encode cs := rfl

theorem encode_singleton (c : Char) : encode [c] = utf8EncodeChar c := List.append_nil _

@[simp] theorem encode_append (cs ds : List Char) : encode (cs ++ ds) = encode cs ++ encode ds :=
  List.flatMap_append

theorem read_encode_append (cs : List Char) (bs : Bytes) :
    read (encode cs ++ bs) = cs.map some ++ read bs := by
  induction cs with
  | nil => rfl
  | cons c cs ih =>
    rw [encode_cons, List.append_assoc, read_encodeChar_append, ih]
    rfl

theorem read_encode (cs : List Char) : read (encode cs) = cs.map some := by
  simpa using read_encode_append cs []

@[simp] theorem lossy_encode (cs : List Char) : lossy (encode cs) = cs := by
  rw [lossy, read_encode, List.map_map]
  exact List.map_id' cs

@[simp] theorem valid_encode (cs : List Char) : valid (encode cs) = true := by
  rw [valid, read_encode]
  simp

theorem encode_injective {cs ds : List Char} (h : encode cs = encode ds) : cs = ds := by
  rw [← lossy_encode cs, h, lossy_encode]

/-- Well-formed bytes are the bytes of the text that is read from them. -/
theorem encode_lossy {bs : Bytes} (h : valid bs = true) : encode (lossy bs) = bs := by
  induction hn : bs.length using Nat.strongRecOn generalizing bs with
  | ind n ih =>
    cases bs with
    | nil => simp [lossy, encode]
    | cons b bs =>
      simp only [valid, read_cons, List.all_cons, Bool.and_eq_true] at h
      obtain ⟨hc, hrest⟩ := h
      obtain ⟨c, hc⟩ := Option.isSome_iff_exists.mp hc
      have hlt : (next b bs).2.length < n := by
        rw [← hn]; exact Nat.lt_succ_of_le (length_next_le b bs)
      have hbytes := encodeChar_of_next (Prod.ext hc rfl : next b bs = (some c, (next b bs).2))
      have hih := ih _ hlt hrest rfl
      rw [lossy] at hih ⊢
      rw [read_cons, List.map_cons, hc, Option.getD_some, encode_cons, hih, ← hbytes]

theorem decode?_eq_some_iff {bs : Bytes} {cs : List Char} :
    decode? bs = some cs ↔ bs = encode cs := by
  unfold decode?
  constructor
  · intro h
    split at h
    · next hvalid =>
      cases h
      exact (encode_lossy hvalid).symm
    · cases h
  · rintro rfl
    rw [if_pos (valid_encode cs), lossy_encode]

/-! ## ASCII -/

theorem encodeChar_ascii {c : Char} (h : c.toNat < 0x80) : utf8EncodeChar c = [asciiByte c] :=
  encodeChar_one h

/-- The bytes of a character beyond ASCII all are. -/
theorem le_of_mem_encodeChar {c : Char} (h : 0x80 ≤ c.toNat) {b : UInt8}
    (hb : b ∈ utf8EncodeChar c) : 0x80 ≤ b.toNat := by
  have htail : ∀ n, 0x80 ≤ (tailByte n).toNat := fun n => by rw [toNat_tailByte]; omega
  have hlead : ∀ n, 0x80 ≤ n → n < 0x100 → 0x80 ≤ (UInt8.ofNat n).toNat := fun n hn hn' => by
    rwa [toNat_ofNat_lead hn']
  by_cases h₂ : c.toNat < 0x800
  · rw [encodeChar_two h h₂] at hb
    simp only [List.mem_cons, List.not_mem_nil, or_false] at hb
    rcases hb with rfl | rfl
    · exact hlead _ (by omega) (by omega)
    · exact htail _
  by_cases h₃ : c.toNat < 0x10000
  · rw [encodeChar_three (by omega) h₃] at hb
    simp only [List.mem_cons, List.not_mem_nil, or_false] at hb
    rcases hb with rfl | rfl | rfl
    · exact hlead _ (by omega) (by omega)
    · exact htail _
    · exact htail _
  · have hlt : c.toNat < 0x110000 := by rcases isValidChar_toNat c with hv | hv <;> omega
    rw [encodeChar_four (by omega)] at hb
    simp only [List.mem_cons, List.not_mem_nil, or_false] at hb
    rcases hb with rfl | rfl | rfl | rfl
    · exact hlead _ (by omega) (by omega)
    · exact htail _
    · exact htail _
    · exact htail _

/-- An ASCII byte is found only in the bytes of its own character. -/
theorem eq_of_asciiByte_mem {c d : Char} (hd : d.toNat < 0x80)
    (h : asciiByte d ∈ utf8EncodeChar c) : c = d := by
  have htoNat : ∀ {c : Char}, c.toNat < 0x80 → (asciiByte c).toNat = c.toNat := fun hc =>
    toNat_ofNat_lead (by omega)
  by_cases hc : c.toNat < 0x80
  · rw [encodeChar_ascii hc, List.mem_singleton] at h
    exact Char.toNat_inj.mp (by rw [← htoNat hc, ← htoNat hd, h])
  · have hle := le_of_mem_encodeChar (by omega) h
    rw [htoNat hd] at hle
    omega

/-- Whether all characters are ASCII. -/
def IsAscii (cs : List Char) : Prop := ∀ c ∈ cs, c.toNat < 0x80

-- By the list, where a search of its own might run through all characters.
instance (cs : List Char) : Decidable (IsAscii cs) := List.decidableBAll _ cs

theorem encode_ascii {cs : List Char} (h : IsAscii cs) :
    encode cs = cs.map asciiByte := by
  induction cs with
  | nil => rfl
  | cons c cs ih =>
    rw [encode_cons, encodeChar_ascii (h c List.mem_cons_self),
      ih fun d hd => h d (List.mem_cons_of_mem c hd)]
    rfl

theorem next_asciiByte {c : Char} (h : c.toNat < 0x80) (bs : Bytes) :
    next (asciiByte c) bs = (some c, bs) :=
  next_of_encodeChar (by rw [encodeChar_ascii h]; rfl)

/-- An ASCII character stands in front of the lossy text where its byte stands in front. No longer
character and no replacement is ASCII. -/
theorem lossy_eq_cons_iff {c : Char} (h : c.toNat < 0x80) {cs : List Char} {bs : Bytes} :
    lossy bs = c :: cs ↔ ∃ rest, bs = asciiByte c :: rest ∧ lossy rest = cs := by
  constructor
  · intro hbs
    cases bs with
    | nil => simp [lossy] at hbs
    | cons b bs =>
      rw [lossy, read_cons, List.map_cons, List.cons.injEq] at hbs
      obtain ⟨hc, hcs⟩ := hbs
      cases hn : (next b bs).1 with
      | none =>
        rw [hn, Option.getD_none] at hc
        subst hc
        exact absurd h (by decide)
      | some d =>
        rw [hn, Option.getD_some] at hc
        subst hc
        have hbytes := encodeChar_of_next (Prod.ext hn rfl : next b bs = (some d, (next b bs).2))
        exact ⟨_, by rw [hbytes, encodeChar_ascii h]; rfl, hcs⟩
  · rintro ⟨rest, rfl, rfl⟩
    rw [lossy, read_cons, next_asciiByte h]
    rfl

/-- The lossy text begins with an ASCII text exactly when the bytes begin with its bytes. -/
theorem prefix_lossy_iff {cs : List Char} (h : IsAscii cs) {bs : Bytes} :
    cs <+: lossy bs ↔ cs.map asciiByte <+: bs := by
  induction cs generalizing bs with
  | nil => simp
  | cons c cs ih =>
    have hc := h c List.mem_cons_self
    have ih' : ∀ {bs}, cs <+: lossy bs ↔ cs.map asciiByte <+: bs :=
      ih fun d hd => h d (List.mem_cons_of_mem c hd)
    constructor
    · rintro ⟨ds, hds⟩
      obtain ⟨rest, rfl, hrest⟩ := (lossy_eq_cons_iff hc).mp hds.symm
      exact (List.cons_prefix_cons).mpr ⟨rfl, ih'.mp ⟨ds, hrest.symm⟩⟩
    · rintro ⟨rest, rfl⟩
      obtain ⟨ds, hds⟩ := ih'.mpr ⟨rest, rfl⟩
      exact ⟨ds, ((lossy_eq_cons_iff hc).mpr ⟨_, rfl, hds.symm⟩).symm⟩

/-- An ASCII text is read from its bytes only. -/
theorem lossy_eq_ascii_iff {cs : List Char} (h : IsAscii cs) {bs : Bytes} :
    lossy bs = cs ↔ bs = encode cs := by
  constructor
  · intro hbs
    induction cs generalizing bs with
    | nil =>
      cases bs with
      | nil => rfl
      | cons b bs =>
        rw [lossy, read_cons] at hbs
        cases hbs
    | cons c cs ih =>
      obtain ⟨rest, rfl, hrest⟩ := (lossy_eq_cons_iff (h c List.mem_cons_self)).mp hbs
      rw [ih (fun d hd => h d (List.mem_cons_of_mem c hd)) hrest, encode_cons,
        encodeChar_ascii (h c List.mem_cons_self)]
      rfl
  · rintro rfl
    exact lossy_encode cs

end FrontDoor.Utf8
