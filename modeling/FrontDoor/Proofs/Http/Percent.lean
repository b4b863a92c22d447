import FrontDoor.Http.Percent
import FrontDoor.Proofs.Text.Hexadecimal

/-!
# Escaping and decoding

`Unescapes` states the rule of decoding, `Spells` the freedom of whoever escapes a text. Decoding
follows the rule and nothing else (`unescapes_iff`), and it finds the text behind each of its
spellings, whatever follows (`decode_spells_append`).
-/

namespace FrontDoor.Percent

open Digits (HexDigit)
open String (utf8EncodeChar)

/-- Whether an escape stands in front. -/
def StartsEscaped (bs : Bytes) : Prop :=
  ∃ a d i j rest, HexDigit a i ∧ HexDigit d j ∧ bs = asciiByte '%' :: a :: d :: rest

/-- From left to right every escape becomes its byte, once, and all else stays. -/
inductive Unescapes : Bytes → Bytes → Prop where
  | nil : Unescapes [] []
  | escape {a d b : UInt8} {i j : Nat} {rest out : Bytes} : HexDigit a i → HexDigit d j →
      b.toNat = 16 * i + j → Unescapes rest out →
      Unescapes (asciiByte '%' :: a :: d :: rest) (b :: out)
  | byte {b : UInt8} {rest out : Bytes} : ¬StartsEscaped (b :: rest) → Unescapes rest out →
      Unescapes (b :: rest) (b :: out)

/-- Every byte written as an escape, each digit in either case. -/
inductive Escapes : Bytes → Bytes → Prop where
  | nil : Escapes [] []
  | cons {a d b : UInt8} {i j : Nat} {x bs : Bytes} : HexDigit a i → HexDigit d j →
      b.toNat = 16 * i + j → Escapes x bs → Escapes (asciiByte '%' :: a :: d :: x) (b :: bs)

/-- A percent-encoding of a text: every character stands as it is, or with all its bytes escaped,
and a percent sign is always escaped. -/
inductive Spells : Bytes → List Char → Prop where
  | nil : Spells [] []
  | plain {x : Bytes} {c : Char} {cs : List Char} : c ≠ '%' → Spells x cs →
      Spells (utf8EncodeChar c ++ x) (c :: cs)
  | escaped {e x : Bytes} {c : Char} {cs : List Char} : Escapes e (utf8EncodeChar c) →
      Spells x cs → Spells (e ++ x) (c :: cs)

/-! ## The decoder by its steps -/

theorem escape?_eq_some_iff {a d b : UInt8} :
    escape? a d = some b ↔ ∃ i j, HexDigit a i ∧ HexDigit d j ∧ b.toNat = 16 * i + j := by
  have htoNat : ∀ {i j : Nat}, i < 16 → j < 16 → (UInt8.ofNat (16 * i + j)).toNat = 16 * i + j :=
    fun hi hj => Utf8.toNat_ofNat_lead (by omega)
  constructor
  · intro h
    unfold escape? at h
    split at h
    · next i j hi hj =>
      have hi := Digits.hexDigit?_eq_some_iff.mp hi
      have hj := Digits.hexDigit?_eq_some_iff.mp hj
      obtain rfl := Option.some.inj h
      exact ⟨i, j, hi, hj, htoNat hi.lt hj.lt⟩
    · cases h
  · rintro ⟨i, j, hi, hj, hb⟩
    rw [escape?, Digits.hexDigit?_eq_some_iff.mpr hi, Digits.hexDigit?_eq_some_iff.mpr hj]
    dsimp only
    rw [← hb, UInt8.ofNat_toNat]

theorem startsEscaped_iff {p a d : UInt8} {rest : Bytes} :
    StartsEscaped (p :: a :: d :: rest) ↔ p = asciiByte '%' ∧ (escape? a d).isSome := by
  simp only [Option.isSome_iff_exists, escape?_eq_some_iff]
  constructor
  · rintro ⟨a, d, i, j, rest, hi, hj, h⟩
    cases h
    have hlt := hi.lt
    have hlt' := hj.lt
    exact ⟨rfl, UInt8.ofNat (16 * i + j), i, j, hi, hj, Utf8.toNat_ofNat_lead (by omega)⟩
  · rintro ⟨rfl, b, i, j, hi, hj, -⟩
    exact ⟨a, d, i, j, rest, hi, hj, rfl⟩

theorem decodeOnto_append (done front bs : Bytes) :
    decodeOnto (done ++ front) bs = front.reverse ++ decodeOnto done bs := by
  fun_induction decodeOnto done bs with
  | case1 done p a d rest b h ih =>
    rw [decodeOnto, h]
    exact ih
  | case2 done p a d rest h ih =>
    rw [decodeOnto, h]
    exact ih
  | case3 done p rest h ih =>
    rw [decodeOnto]
    · exact ih
    · exact h
  | case4 done => rw [decodeOnto, List.reverse_append]

theorem decodeOnto_singleton (b : UInt8) (bs : Bytes) : decodeOnto [b] bs = b :: decode bs :=
  decodeOnto_append [] [b] bs

@[simp] theorem decode_nil : decode [] = [] := rfl

theorem decode_escape {a d b : UInt8} {i j : Nat} (hi : HexDigit a i) (hj : HexDigit d j)
    (hb : b.toNat = 16 * i + j) (rest : Bytes) :
    decode (asciiByte '%' :: a :: d :: rest) = b :: decode rest := by
  rw [decode, decodeOnto, if_pos rfl, escape?_eq_some_iff.mpr ⟨i, j, hi, hj, hb⟩]
  exact decodeOnto_singleton b rest

theorem decode_byte {b : UInt8} {rest : Bytes} (h : ¬StartsEscaped (b :: rest)) :
    decode (b :: rest) = b :: decode rest := by
  rw [decode]
  match rest, h with
  | [], _ => rfl
  | [a], _ => rfl
  | a :: d :: rest, h =>
    have hnone : (if b = asciiByte '%' then escape? a d else none) = none := by
      split
      · next hb =>
        rw [startsEscaped_iff, not_and, Option.not_isSome_iff_eq_none] at h
        exact h hb
      · rfl
    rw [decodeOnto, hnone]
    exact decodeOnto_singleton b _

/-- Decoding follows the rule, and the rule leaves no choice. -/
theorem unescapes_iff {raw out : Bytes} : Unescapes raw out ↔ out = decode raw := by
  constructor
  · intro h
    induction h with
    | nil => rfl
    | escape hi hj hb _ ih => rw [decode_escape hi hj hb, ih]
    | byte h _ ih => rw [decode_byte h, ih]
  · rintro rfl
    induction hn : raw.length using Nat.strongRecOn generalizing raw with
    | ind n ih =>
      cases raw with
      | nil => exact .nil
      | cons b rest =>
        by_cases h : StartsEscaped (b :: rest)
        · obtain ⟨a, d, i, j, rest, hi, hj, h⟩ := h
          cases h
          have hb : (UInt8.ofNat (16 * i + j)).toNat = 16 * i + j := by
            have hlt := hi.lt
            have hlt' := hj.lt
            exact Utf8.toNat_ofNat_lead (by omega)
          rw [decode_escape hi hj hb]
          refine .escape hi hj hb (ih rest.length ?_ rfl)
          rw [← hn]
          simp only [List.length_cons]
          omega
        · rw [decode_byte h]
          exact .byte h (ih rest.length (by rw [← hn]; exact Nat.lt_succ_self _) rfl)

/-! ## What is not escaped -/

theorem not_startsEscaped {b : UInt8} (h : b ≠ asciiByte '%') (rest : Bytes) :
    ¬StartsEscaped (b :: rest) := by
  rintro ⟨a, d, i, j, tail, -, -, heq⟩
  exact h (List.cons.inj heq).1

theorem decode_append_of_not_mem {x : Bytes} (h : asciiByte '%' ∉ x) (rest : Bytes) :
    decode (x ++ rest) = x ++ decode rest := by
  induction x with
  | nil => rfl
  | cons b x ih =>
    rw [List.mem_cons, not_or] at h
    rw [List.cons_append, decode_byte (not_startsEscaped (Ne.symm h.1) _), ih h.2]
    rfl

/-- Bytes without a percent sign are left alone. -/
theorem decode_of_not_mem {raw : Bytes} (h : asciiByte '%' ∉ raw) : decode raw = raw := by
  have happend := decode_append_of_not_mem h []
  rwa [List.append_nil, decode_nil, List.append_nil] at happend

/-- Whether there is anything to decode makes no difference to the text. -/
theorem text?_eq (raw : Bytes) : text? raw = Utf8.decode? (decode raw) := by
  rw [text?]
  split
  · rfl
  · next h => rw [decode_of_not_mem h]

/-! ## Spellings -/

/-- A text without a percent sign spells itself. -/
theorem Spells.of_not_mem {cs : List Char} (h : '%' ∉ cs) : Spells (Utf8.encode cs) cs := by
  induction cs with
  | nil => exact .nil
  | cons c cs ih =>
    rw [List.mem_cons, not_or] at h
    rw [Utf8.encode_cons]
    exact .plain (Ne.symm h.1) (ih h.2)

theorem decode_escapes_append {e bs : Bytes} (h : Escapes e bs) (rest : Bytes) :
    decode (e ++ rest) = bs ++ decode rest := by
  induction h with
  | nil => rfl
  | cons hi hj hb _ ih =>
    rw [List.cons_append, List.cons_append, List.cons_append, decode_escape hi hj hb, ih]
    rfl

theorem decode_spells_append {x : Bytes} {cs : List Char} (h : Spells x cs) (rest : Bytes) :
    decode (x ++ rest) = Utf8.encode cs ++ decode rest := by
  induction h with
  | nil => rfl
  | plain hc _ ih =>
    have hpercent : asciiByte '%' ∉ utf8EncodeChar _ := fun hmem =>
      hc (Utf8.eq_of_asciiByte_mem (by decide) hmem)
    rw [List.append_assoc, decode_append_of_not_mem hpercent, ih, Utf8.encode_cons,
      List.append_assoc]
  | escaped he _ ih =>
    rw [List.append_assoc, decode_escapes_append he, ih, Utf8.encode_cons, List.append_assoc]

end FrontDoor.Percent
