import FrontDoor.Proofs.Text.Utf8
import FrontDoor.Text.Digits

/-!
# Hexadecimal digits

Escapes spell bytes and characters by hexadecimal digits of either case. `hexDigit?_eq_some_iff`
says which bytes are digits, by their ranges in ASCII.
-/

namespace FrontDoor.Digits

/-- A byte that is a hexadecimal digit, and its value. -/
inductive HexDigit (b : UInt8) : Nat → Prop where
  | decimal {d : Nat} : d < 10 → b.toNat = 0x30 + d → HexDigit b d
  | upper {d : Nat} : d < 6 → b.toNat = 0x41 + d → HexDigit b (10 + d)
  | lower {d : Nat} : d < 6 → b.toNat = 0x61 + d → HexDigit b (10 + d)

theorem HexDigit.lt {b : UInt8} {d : Nat} (h : HexDigit b d) : d < 16 := by
  cases h <;> omega

theorem ofNat_le_iff {m n : Nat} (hm : m < 0xD800) (hn : n < 0xD800) :
    Char.ofNat m ≤ Char.ofNat n ↔ m ≤ n := by
  rw [Char.le_def, UInt32.le_iff_toNat_le]
  show (Char.ofNat m).toNat ≤ (Char.ofNat n).toNat ↔ m ≤ n
  rw [Utf8.toNat_ofNat_of_isValidChar (.inl hm), Utf8.toNat_ofNat_of_isValidChar (.inl hn)]

theorem hexDigit?_ofNat {n : Nat} (h : n < 0xD800) :
    hexDigit? (Char.ofNat n) =
      if 0x30 ≤ n ∧ n ≤ 0x39 then some (n - 0x30)
      else if 0x61 ≤ n ∧ n ≤ 0x66 then some (n - 0x61 + 10)
      else if 0x41 ≤ n ∧ n ≤ 0x46 then some (n - 0x41 + 10)
      else none := by
  have hlow : ∀ {m : Nat}, m < 0xD800 → (Char.ofNat m ≤ Char.ofNat n ↔ m ≤ n) := fun hm =>
    ofNat_le_iff hm h
  have hhigh : ∀ {m : Nat}, m < 0xD800 → (Char.ofNat n ≤ Char.ofNat m ↔ n ≤ m) := fun hm =>
    ofNat_le_iff h hm
  rw [hexDigit?, Utf8.toNat_ofNat_of_isValidChar (.inl h)]
  show (if Char.ofNat 0x30 ≤ Char.ofNat n ∧ Char.ofNat n ≤ Char.ofNat 0x39 then some (n - 0x30)
    else if Char.ofNat 0x61 ≤ Char.ofNat n ∧ Char.ofNat n ≤ Char.ofNat 0x66 then
      some (n - 0x61 + 10)
    else if Char.ofNat 0x41 ≤ Char.ofNat n ∧ Char.ofNat n ≤ Char.ofNat 0x46 then
      some (n - 0x41 + 10)
    else none) = _
  simp only [hlow (show 0x30 < 0xD800 by decide), hlow (show 0x61 < 0xD800 by decide),
    hlow (show 0x41 < 0xD800 by decide), hhigh (show 0x39 < 0xD800 by decide),
    hhigh (show 0x66 < 0xD800 by decide), hhigh (show 0x46 < 0xD800 by decide)]

/-- The reader takes just these bytes for digits. -/
theorem hexDigit?_eq_some_iff {b : UInt8} {d : Nat} :
    hexDigit? (Char.ofNat b.toNat) = some d ↔ HexDigit b d := by
  have hb : b.toNat < 0x100 := b.toNat_lt
  rw [hexDigit?_ofNat (by omega)]
  constructor
  · intro h
    split at h
    · obtain rfl := Option.some.inj h
      exact .decimal (by omega) (by omega)
    split at h
    · obtain rfl := Option.some.inj h
      rw [Nat.add_comm]
      exact .lower (by omega) (by omega)
    split at h
    · obtain rfl := Option.some.inj h
      rw [Nat.add_comm]
      exact .upper (by omega) (by omega)
    · cases h
  · rintro (⟨hd, hb⟩ | ⟨hd, hb⟩ | ⟨hd, hb⟩)
    · rw [if_pos (by omega), hb, Nat.add_sub_cancel_left]
    · rw [if_neg (by omega), if_neg (by omega), if_pos (by omega), hb, Nat.add_sub_cancel_left,
        Nat.add_comm]
    · rw [if_neg (by omega), if_pos (by omega), hb, Nat.add_sub_cancel_left, Nat.add_comm]

/-- Four digits are read from the left. -/
theorem value?_four {a b c d : UInt8} {n : Nat} :
    value? 16 hexDigit? ([a, b, c, d].map fun x => Char.ofNat x.toNat) = some n ↔
      ∃ i j k l, HexDigit a i ∧ HexDigit b j ∧ HexDigit c k ∧ HexDigit d l ∧
        n = ((i * 16 + j) * 16 + k) * 16 + l := by
  simp only [value?, List.map_cons, List.map_nil, List.foldl_cons, List.foldl_nil,
    Option.bind_some, Option.bind_eq_some_iff, Option.map_eq_some_iff, hexDigit?_eq_some_iff,
    Nat.zero_mul, Nat.zero_add]
  constructor
  · rintro ⟨_, ⟨_, ⟨_, ⟨i, hi, rfl⟩, j, hj, rfl⟩, k, hk, rfl⟩, l, hl, rfl⟩
    exact ⟨i, j, k, l, hi, hj, hk, hl, rfl⟩
  · rintro ⟨i, j, k, l, hi, hj, hk, hl, rfl⟩
    exact ⟨_, ⟨_, ⟨_, ⟨i, hi, rfl⟩, j, hj, rfl⟩, k, hk, rfl⟩, l, hl, rfl⟩

end FrontDoor.Digits
