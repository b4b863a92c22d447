import FrontDoor.Address.Socket
import FrontDoor.Proofs.Address.Ip
import FrontDoor.Proofs.Http.Target

/-!
# Socket addresses as authorities

A socket address is written with few characters, none of which ends an authority, and its colons are
few enough for the scan of an authority. So without a scope it is an authority as it is written
(`isAuthority_text`).
-/

namespace FrontDoor

/-- What the texts of IP addresses are put together from: digits, dots and colons. At most so many
are colons, and the text has at most so many characters. -/
structure AddressText (colons length : ℕ) (cs : List Char) : Prop where
  chars : ∀ c ∈ cs, c ∈ "0123456789abcdef.:".toList
  colons : cs.count ':' ≤ colons
  length : cs.length ≤ length

instance (colons length : ℕ) (cs : List Char) : Decidable (AddressText colons length cs) :=
  decidable_of_iff ((cs.all fun c => c ∈ "0123456789abcdef.:".toList) = true ∧
      cs.count ':' ≤ colons ∧ cs.length ≤ length)
    ⟨fun ⟨h, hc, hl⟩ => ⟨List.all_iff_forall_prop.mp h, hc, hl⟩,
      fun h => ⟨List.all_iff_forall_prop.mpr h.chars, h.colons, h.length⟩⟩

namespace AddressText

variable {m m' n n' base : ℕ} {cs ds : List Char}

theorem append (h : AddressText m n cs) (h' : AddressText m' n' ds) :
    AddressText (m + m') (n + n') (cs ++ ds) where
  chars c hc := (List.mem_append.mp hc).elim (h.chars c) (h'.chars c)
  colons := by
    rw [List.count_append]
    exact Nat.add_le_add h.colons h'.colons
  length := by
    rw [List.length_append]
    exact Nat.add_le_add h.length h'.length

theorem mono (h : AddressText m n cs) (hm : m ≤ m') (hn : n ≤ n') : AddressText m' n' cs :=
  ⟨h.chars, h.colons.trans hm, h.length.trans hn⟩

theorem dot : AddressText 0 1 ['.'] := by decide

theorem colon : AddressText 1 1 [':'] := by decide

theorem numeral {k : ℕ} (hbase : 1 < base) (h16 : base ≤ 16)
    (hlength : (Nat.toDigits base k).length ≤ n) : AddressText 0 n (Nat.toDigits base k) := by
  have hdigit : ∀ d < 16, Nat.digitChar d ∈ "0123456789abcdef.:".toList ∧
      Nat.digitChar d ≠ ':' := by decide
  have hmem : ∀ c ∈ Nat.toDigits base k, c ∈ "0123456789abcdef.:".toList ∧ c ≠ ':' := by
    intro c hc
    obtain ⟨d, hd, rfl⟩ := Digits.exists_digit_of_mem_toDigits hbase hc
    exact hdigit d (by omega)
  refine ⟨fun c hc => (hmem c hc).1, ?_, hlength⟩
  rw [List.count_eq_zero_of_not_mem fun h => (hmem _ h).2 rfl]

theorem octet (o : UInt8) : AddressText 0 3 (Nat.toDigits 10 o.toNat) :=
  numeral (by decide) (by decide)
    ((Nat.length_toDigits_le_iff (by decide) (by decide)).mpr (Nat.lt_trans o.toNat_lt (by decide)))

theorem group (g : UInt16) : AddressText 0 4 (Digits.hex g.toNat) :=
  numeral (by decide) (by decide)
    ((Nat.length_toDigits_le_iff (by decide) (by decide)).mpr g.toNat_lt)

theorem port (p : UInt16) : AddressText 0 5 (Nat.toDigits 10 p.toNat) :=
  numeral (by decide) (by decide)
    ((Nat.length_toDigits_le_iff (by decide) (by decide)).mpr (Nat.lt_trans p.toNat_lt (by decide)))

theorem ipv4 (ip : Ipv4) : AddressText 0 15 ip.text.toList := by
  rw [Ipv4.toList_text]
  exact (octet ip.a).append (dot.append ((octet ip.b).append (dot.append ((octet ip.c).append
    (dot.append (octet ip.d))))))

theorem furtherGroups (groups : List UInt16) :
    AddressText groups.length (5 * groups.length) (Ipv6.furtherGroups groups) := by
  induction groups with
  | nil => exact ⟨by simp [Ipv6.furtherGroups], by simp [Ipv6.furtherGroups],
      by simp [Ipv6.furtherGroups]⟩
  | cons g groups ih =>
    refine (colon.append ((group g).append ih)).mono ?_ ?_
    all_goals rw [List.length_cons]; omega

theorem joinGroups (groups : List UInt16) :
    AddressText groups.length (5 * groups.length) (Ipv6.joinGroups groups).toList := by
  cases groups with
  | nil => decide
  | cons g groups =>
    rw [Ipv6.toList_joinGroups_cons]
    refine ((group g).append (furtherGroups groups)).mono ?_ ?_
    all_goals rw [List.length_cons]; omega

theorem ipv6 (ip : Ipv6) : AddressText 8 42 ip.text.toList := by
  obtain ⟨groups, height⟩ := ip
  unfold Ipv6.text
  dsimp only
  split
  · next _ high low =>
    have hmark : AddressText 3 7 "::ffff:".toList := by decide
    rw [String.toList_append]
    exact (hmark.append (ipv4 (Ipv4.ofGroups high low))).mono (by decide) (by decide)
  · split
    · next hzeros =>
      have hlengths := congrArg List.length (Ipv6.split_at_longestZeros groups)
      simp only [List.length_append, List.length_replicate, height] at hlengths
      rw [String.toList_append, String.toList_append]
      refine (((joinGroups _).append (colon.append colon)).append (joinGroups _)).mono ?_ ?_
      all_goals omega
    · exact (joinGroups groups).mono (by omega) (by omega)

/-! ## Scanning -/

open Target (AuthorityScan isAuthorityByte)

theorem step_of_plain {c : Char} (hchar : Char.ofNat (asciiByte c).toNat = c)
    (hplain : c ∉ ":[]@%".toList) (hallowed : isAuthorityByte (asciiByte c) = true)
    (s : AuthorityScan) : s.step (asciiByte c) = .ok { s with endsInAt := false } := by
  unfold AuthorityScan.step
  rw [hchar]
  dsimp only
  split
  all_goals first | exact absurd (by decide) hplain | rw [if_pos hallowed]

/-- Over the text of an address the scan counts the colons. -/
theorem foldlM_step (h : AddressText m n cs) {s : AuthorityScan} (hat : s.endsInAt = false)
    (hcolons : s.colons + cs.count ':' ≤ 8) :
    (cs.map asciiByte).foldlM AuthorityScan.step s =
      .ok { s with colons := s.colons + cs.count ':' } := by
  have hplain : ∀ c ∈ "0123456789abcdef.:".toList, c ≠ ':' →
      Char.ofNat (asciiByte c).toNat = c ∧ c ∉ ":[]@%".toList ∧
        isAuthorityByte (asciiByte c) = true :=
    List.all_iff_forall_prop.mp (by decide)
  have hchars := h.chars
  clear h
  induction cs generalizing s with
  | nil => rfl
  | cons c cs ih =>
    have htail : ∀ c' ∈ cs, c' ∈ "0123456789abcdef.:".toList := fun c' hc' =>
      hchars c' (List.mem_cons_of_mem c hc')
    rw [List.map_cons, List.foldlM_cons]
    by_cases hc : c = ':'
    · subst hc
      rw [List.count_cons_self] at hcolons
      have hstep : s.step (asciiByte ':') = .ok { s with colons := s.colons + 1 } := by
        obtain ⟨colons, opened, closed, percent, endsInAt⟩ := s
        obtain rfl : endsInAt = false := hat
        exact if_neg (by dsimp only at hcolons ⊢; omega)
      rw [hstep]
      refine (ih (s := { s with colons := s.colons + 1 }) hat ?_ htail).trans ?_
      · dsimp only
        omega
      · rw [List.count_cons_self]
        dsimp only
        rw [Nat.add_assoc, Nat.add_comm 1]
    · obtain ⟨hchar, hnone, hallowed⟩ := hplain c (hchars c List.mem_cons_self) hc
      rw [List.count_cons_of_ne hc] at hcolons ⊢
      have hstep : s.step (asciiByte c) = .ok s := by
        rw [step_of_plain hchar hnone hallowed, ← hat]
      rw [hstep]
      exact ih hat hcolons htail

end AddressText

namespace SocketAddress

open Target (AuthorityScan)

/-- The scope of an address; it is zero for an address that has none. -/
def scope : SocketAddress → UInt32
  | .v4 _ _ => 0
  | .v6 _ scope _ => scope

theorem toList_text_v4 (ip : Ipv4) (port : UInt16) :
    (text (.v4 ip port)).toList = ip.text.toList ++ ':' :: Nat.toDigits 10 port.toNat := by
  simp [text, Digits.decimal]

theorem toList_text_v6 (ip : Ipv6) (port : UInt16) :
    (text (.v6 ip 0 port)).toList =
      '[' :: (ip.text.toList ++ ']' :: ':' :: Nat.toDigits 10 port.toNat) := by
  simp [text, Digits.decimal]

theorem exists_text_of_scope (ip : Ipv6) {scope : UInt32} (h : scope ≠ 0) (port : UInt16) :
    ∃ rest, (text (.v6 ip scope port)).toList = '[' :: (ip.text.toList ++ '%' :: rest) :=
  ⟨Nat.toDigits 10 scope.toNat ++ ']' :: ':' :: Nat.toDigits 10 port.toNat,
    by simp [text, Digits.decimal, h]⟩

/-- An address ends in its port. -/
theorem exists_text_eq (a : SocketAddress) :
    ∃ front, a.text.toList = front ++ Nat.toDigits 10 a.port.toNat := by
  cases a with
  | v4 ip port =>
    exact ⟨_, String.toList_append.trans (congrArg (_ ++ ·) String.toList_ofList)⟩
  | v6 ip scope port =>
    exact ⟨_, String.toList_append.trans (congrArg (_ ++ ·) String.toList_ofList)⟩

/-- The characters of an address without a scope. -/
theorem chars_text {a : SocketAddress} (h : a.scope = 0) :
    ∀ c ∈ a.text.toList, c ∈ "0123456789abcdef.:[]".toList := by
  have hsub : ∀ c ∈ "0123456789abcdef.:".toList, c ∈ "0123456789abcdef.:[]".toList :=
    List.all_iff_forall_prop.mp (by decide)
  intro c hc
  cases a with
  | v4 ip port =>
    rw [toList_text_v4] at hc
    exact hsub c (((AddressText.ipv4 ip).append (.append .colon (.port port))).chars c hc)
  | v6 ip scope port =>
    obtain rfl : scope = 0 := h
    rw [toList_text_v6, List.mem_cons, List.mem_append, List.mem_cons] at hc
    rcases hc with rfl | hc | rfl | hc
    · decide
    · exact hsub c ((AddressText.ipv6 ip).chars c hc)
    · decide
    · exact hsub c ((AddressText.colon.append (.port port)).chars c hc)

theorem length_text_le {a : SocketAddress} (h : a.scope = 0) : a.text.toList.length ≤ 50 := by
  cases a with
  | v4 ip port =>
    rw [toList_text_v4]
    exact ((AddressText.ipv4 ip).append (.append .colon (.port port))).length.trans (by decide)
  | v6 ip scope port =>
    obtain rfl : scope = 0 := h
    have hip := (AddressText.ipv6 ip).length
    have hport := (AddressText.port port).length
    rw [toList_text_v6]
    simp only [List.length_cons, List.length_append]
    omega

theorem text_ne_nil {a : SocketAddress} (h : a.scope = 0) : a.text.toList ≠ [] := by
  cases a with
  | v4 ip port =>
    rw [toList_text_v4]
    simp
  | v6 ip scope port =>
    obtain rfl : scope = 0 := h
    rw [toList_text_v6]
    simp

/-- An address without a scope is an authority as it is written. -/
theorem isAuthority_text {a : SocketAddress} (h : a.scope = 0) :
    Target.IsAuthority (a.text.toList.map asciiByte) where
  unended b hb := by
    have hends : ∀ c ∈ "0123456789abcdef.:[]".toList,
        Target.endsAuthority (asciiByte c) = false :=
      List.all_iff_forall_prop.mp (by decide)
    obtain ⟨c, hc, rfl⟩ := List.mem_map.mp hb
    exact hends c (chars_text h c hc)
  scan := by
    cases a with
    | v4 ip port =>
      have htext := (AddressText.ipv4 ip).append (.append .colon (.port port))
      have hcolons := htext.colons
      rw [toList_text_v4]
      refine ⟨_, htext.foldlM_step rfl (by simp only [AuthorityScan.start]; omega), ?_⟩
      simpa [AuthorityScan.complete, AuthorityScan.start] using hcolons
    | v6 ip scope port =>
      obtain rfl : scope = 0 := h
      have hip := AddressText.ipv6 ip
      have hport := AddressText.colon.append (.port port)
      have hcolons := hport.colons
      rw [toList_text_v6, List.map_cons, List.map_append, List.map_cons, List.foldlM_cons]
      refine ⟨⟨0 + ([':'] ++ Nat.toDigits 10 port.toNat).count ':', true, true, false, false⟩,
        ?_, ?_⟩
      · show (((ip.text.toList.map asciiByte) ++ _).foldlM AuthorityScan.step
          ⟨0, true, false, false, false⟩) = _
        rw [List.foldlM_append, hip.foldlM_step rfl (by have := hip.colons; dsimp only; omega)]
        show (((':' :: Nat.toDigits 10 port.toNat).map asciiByte).foldlM AuthorityScan.step
          ⟨0, true, true, false, false⟩) = _
        exact hport.foldlM_step rfl (by dsimp only; omega)
      · simpa [AuthorityScan.complete] using hcolons

end SocketAddress

end FrontDoor
