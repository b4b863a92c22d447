import FrontDoor.Address.Socket
import FrontDoor.Proofs.Address.Ip

/-!
# Socket addresses are read back

What is written for a socket address is read as this address, whatever its scope and port are
(`read?_text`). A scope of zero is not written, and is what is read where none stands.
-/

namespace FrontDoor.SocketAddress

variable {port : UInt16} {scope : UInt32} {rest : List Char}

theorem noDigit_nil (base : ℕ) : NoDigit base [] := fun _ h => nomatch h

theorem readPort?_decimal (port : UInt16) :
    readPort? (':' :: Nat.toDigits 10 port.toNat) = some port := by
  have hlimit : port.toNat ≤ 65535 := Nat.le_of_lt_succ port.toNat_lt
  have hread : readBounded? 10 65535 none true (Nat.toDigits 10 port.toNat ++ []) =
      some (port.toNat, []) :=
    readBounded?_toDigits (by decide) (by decide) hlimit (by simp) (noDigit_nil 10)
  rw [List.append_nil] at hread
  simp [readPort?, expectChar?_cons_self, hread]

/-- The scope of an address as it is written: nothing for zero. -/
def scopeText (scope : UInt32) : List Char :=
  if scope = 0 then [] else '%' :: Nat.toDigits 10 scope.toNat

/-- A scope is read as it is written, in front of a bracket. -/
theorem readScope_scopeText (scope : UInt32) (cs : List Char) :
    readScope (scopeText scope ++ ']' :: cs) = (scope.toNat, ']' :: cs) := by
  unfold readScope scopeText
  split
  · next hzero =>
    rw [List.nil_append, expectChar?_of_head? (by rintro _ ⟨⟩; decide), hzero]
    rfl
  · have hlimit : scope.toNat ≤ 4294967295 := Nat.le_of_lt_succ scope.toNat_lt
    have hbracket : NoDigit 10 (']' :: cs) := by
      rintro c ⟨⟩
      decide
    rw [List.cons_append, expectChar?_cons_self, Option.bind_some,
      readBounded?_toDigits (by decide) (by decide) hlimit (by simp) hbracket]
    rfl

/-- Behind an address in brackets a scope stands or the bracket, and neither goes on like it. -/
theorem closed_scopeText (scope : UInt32) (cs : List Char) :
    Ipv6.Closed (scopeText scope ++ ']' :: cs) := by
  have hhead : ∃ c tail, scopeText scope ++ ']' :: cs = c :: tail ∧ (c = '%' ∨ c = ']') := by
    unfold scopeText
    split
    · exact ⟨']', cs, rfl, .inr rfl⟩
    · exact ⟨'%', _, rfl, .inl rfl⟩
  obtain ⟨c, tail, heq, hc⟩ := hhead
  rw [heq]
  refine ⟨?_, ?_, ?_⟩
  · rintro _ ⟨⟩
    rcases hc with rfl | rfl <;> decide
  · rintro _ ⟨⟩
    rcases hc with rfl | rfl <;> decide
  · rintro _ ⟨⟩
    rcases hc with hc | hc <;> cases hc

theorem toList_text_scoped (ip : Ipv6) (scope : UInt32) (port : UInt16) :
    (text (.v6 ip scope port)).toList = '[' :: (ip.text.toList ++
      (scopeText scope ++ ']' :: ':' :: Nat.toDigits 10 port.toNat)) := by
  by_cases h : scope = 0 <;> simp [text, scopeText, Digits.decimal, h]

theorem readV4?_text (ip : Ipv4) (port : UInt16) :
    readV4? (text (.v4 ip port)).toList = some (.v4 ip port) := by
  have htext : (text (.v4 ip port)).toList =
      ip.text.toList ++ ':' :: Nat.toDigits 10 port.toNat := by
    simp [text, Digits.decimal]
  have hcolon : NoDigit 10 (':' :: Nat.toDigits 10 port.toNat) := by
    rintro c ⟨⟩
    decide
  rw [htext, readV4?, Ipv4.read?_text ip hcolon]
  simp [readPort?_decimal]

theorem readV6?_text (ip : Ipv6) (scope : UInt32) (port : UInt16) :
    readV6? (text (.v6 ip scope port)).toList = some (.v6 ip scope port) := by
  rw [toList_text_scoped, readV6?]
  simp [expectChar?_cons_self, Ipv6.read?_text ip (closed_scopeText scope _),
    readScope_scopeText, readPort?_decimal]

/-- **What is written for a socket address is read as this address.** -/
theorem read?_text (a : SocketAddress) : read? a.text = some a := by
  unfold read?
  cases a with
  | v4 ip port => rw [readV4?_text, Option.some_or]
  | v6 ip scope port =>
    have hbracket : NoDigit 16 ('[' :: (ip.text.toList ++
        (scopeText scope ++ ']' :: ':' :: Nat.toDigits 10 port.toNat))) := by
      rintro c ⟨⟩
      decide
    have hv4 : readV4? (text (.v6 ip scope port)).toList = none := by
      rw [toList_text_scoped, readV4?, Ipv6.read?_ipv4_of_noDigit hbracket]
      rfl
    rw [hv4, readV6?_text, Option.none_or]

end FrontDoor.SocketAddress
