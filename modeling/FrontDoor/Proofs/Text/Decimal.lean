import FrontDoor.Proofs.Text.Utf8
import FrontDoor.Text.Digits

/-!
# Decimal numerals

Numbers have numerals of their own (`decimal_injective`), and numerals of three digits stand behind
a text without being mistaken for its end (`append_decimal_injective`).
-/

namespace FrontDoor.Digits

theorem decimal_injective {m n : Nat} (h : decimal m = decimal n) : m = n := by
  have hdigits : Nat.toDigits 10 m = Nat.toDigits 10 n := String.ofList_injective h
  calc m = Nat.ofDigitChars 10 (Nat.toDigits 10 m) 0 := Nat.ofDigitChars_ten_toDigits.symm
    _ = Nat.ofDigitChars 10 (Nat.toDigits 10 n) 0 := by rw [hdigits]
    _ = n := Nat.ofDigitChars_ten_toDigits

theorem isAscii_decimal (n : Nat) : Utf8.IsAscii (decimal n).toList := by
  intro c hc
  rw [decimal, String.toList_ofList] at hc
  have hdigit := Nat.isDigit_of_mem_toDigits (by decide) (by decide) hc
  exact Nat.lt_of_le_of_lt (Char.isDigit_iff_toNat.mp hdigit).2 (by decide)

theorem length_decimal {n : Nat} (h : 100 ≤ n) (h' : n < 1000) :
    (decimal n).toList.length = 3 := by
  have hle : (Nat.toDigits 10 n).length ≤ 3 :=
    (Nat.length_toDigits_le_iff (by decide) (by decide)).mpr h'
  have hgt : ¬(Nat.toDigits 10 n).length ≤ 2 := fun hshort =>
    absurd ((Nat.length_toDigits_le_iff (by decide) (by decide)).mp hshort) (by omega)
  rw [decimal, String.toList_ofList]
  omega

/-- A text followed by a number of three digits shows both, even if the text ends in digits. -/
theorem append_decimal_injective {a b : String} {m n : Nat} (hm : 100 ≤ m) (hm' : m < 1000)
    (hn : 100 ≤ n) (hn' : n < 1000) (h : a ++ decimal m = b ++ decimal n) : a = b ∧ m = n := by
  have hlists : a.toList ++ (decimal m).toList = b.toList ++ (decimal n).toList := by
    rw [← String.toList_append, h, String.toList_append]
  have hlength : (decimal m).toList.length = (decimal n).toList.length := by
    rw [length_decimal hm hm', length_decimal hn hn']
  obtain ⟨htext, hnumber⟩ := List.append_inj' hlists hlength
  exact ⟨String.toList_injective htext, decimal_injective (String.toList_injective hnumber)⟩

end FrontDoor.Digits
