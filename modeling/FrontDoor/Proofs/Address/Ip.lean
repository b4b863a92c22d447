import FrontDoor.Address.Ip
import FrontDoor.Proofs.Text.Front

/-!
# IP addresses are read back

What is written for an address is read as this address, and what follows is left alone when it does
not go on like an address itself (`Ipv4.read?_text`, `Ipv6.read?_text`). Of the zeros that are left
out it is only used that they are zeros, not that the run is the longest.
-/

namespace FrontDoor

/-! ## IPv4 -/

namespace Ipv4

variable {rest : List Char}

theorem readOctet?_decimal (o : UInt8) (h : NoDigit 10 rest) :
    readOctet? (Nat.toDigits 10 o.toNat ++ rest) = some (o, rest) := by
  have ho : o.toNat < 10 ^ 3 := Nat.lt_trans o.toNat_lt (by decide)
  have hlength : (Nat.toDigits 10 o.toNat).length ≤ 3 :=
    (Nat.length_toDigits_le_iff (by decide) (by decide)).mpr ho
  have hlimit : o.toNat ≤ 255 := Nat.le_of_lt_succ o.toNat_lt
  rw [readOctet?, readBounded?_toDigits (by decide) (by decide) hlimit (by simpa using hlength) h,
    Option.map_some, UInt8.ofNat_toNat]

theorem toList_text (ip : Ipv4) :
    ip.text.toList = Nat.toDigits 10 ip.a.toNat ++ '.' :: (Nat.toDigits 10 ip.b.toNat ++
      '.' :: (Nat.toDigits 10 ip.c.toNat ++ '.' :: Nat.toDigits 10 ip.d.toNat)) := by
  simp [text, Digits.decimal]

theorem noDigit_dot (cs : List Char) : NoDigit 10 ('.' :: cs) := by
  rintro c ⟨⟩
  decide

/-- What is written for an address is read as this address. -/
theorem read?_text (ip : Ipv4) (h : NoDigit 10 rest) :
    read? (ip.text.toList ++ rest) = some (ip, rest) := by
  simp only [toList_text, List.append_assoc, List.cons_append, read?, Option.bind_eq_bind,
    readOctet?_decimal _ (noDigit_dot _), Option.bind_some, expectChar?_cons_self,
    readOctet?_decimal _ h]

/-- An address begins with decimal digits and a dot. -/
theorem exists_dot_of_read? {cs : List Char} {r : Ipv4 × List Char} (h : read? cs = some r) :
    ∃ ds tail, cs = ds ++ '.' :: tail ∧ ∀ c ∈ ds, (Digits.hexDigit? c).any (· < 10) = true := by
  simp only [read?, Option.bind_eq_bind, Option.bind_eq_some_iff] at h
  obtain ⟨⟨a, after⟩, ha, after', hdot, -⟩ := h
  obtain ⟨⟨n, rest⟩, hbounded, hrest⟩ := Option.map_eq_some_iff.mp ha
  obtain rfl : rest = after := (Prod.mk.inj hrest).2
  obtain ⟨ds, rfl, hds⟩ := exists_digits_of_readBounded? hbounded
  exact ⟨ds, after', by rw [← expectChar?_eq_some_iff.mp hdot], hds⟩

/-- A hexadecimal numeral does not begin an address unless more digits or a dot follow. -/
theorem read?_hex_append {n : ℕ} (hdigit : NoDigit 16 rest) (hdot : ∀ c ∈ rest.head?, c ≠ '.') :
    read? (Digits.hex n ++ rest) = none := by
  cases hread : read? (Digits.hex n ++ rest) with
  | none => rfl
  | some r =>
    obtain ⟨ds, tail, heq, hds⟩ := exists_dot_of_read? hread
    have hhex : '.' ∉ Digits.hex n := by
      intro hmem
      obtain ⟨d, hd, hc⟩ := Digits.exists_digit_of_mem_toDigits (by decide) hmem
      have hnone : Digits.hexDigit? '.' = none := by decide
      rw [hc, Digits.reads_hexDigit? (by decide) d hd] at hnone
      cases hnone
    -- The dot stands in the numeral or behind it, and the digits before it reach up to it.
    rcases List.append_eq_append_iff.mp heq with ⟨as, rfl, hrest⟩ | ⟨as, hnumeral, hrest⟩
    · cases as with
      | nil => exact absurd rfl (hdot '.' (by rw [hrest]; rfl))
      | cons c as =>
        have hc := hdigit c (by rw [hrest]; rfl)
        have hten := hds c (by simp)
        cases hd : Digits.hexDigit? c with
        | none => simp [hd] at hten
        | some d =>
          simp only [hd, Option.any_some, decide_eq_true_eq, decide_eq_false_iff_not] at hten hc
          omega
    · cases as with
      | nil => exact absurd rfl (hdot '.' (by rw [← List.nil_append rest, ← hrest]; rfl))
      | cons c as =>
        obtain ⟨rfl, -⟩ := List.cons.inj hrest
        exact absurd (by rw [hnumeral]; simp) hhex

theorem groups_ofGroups (high low : UInt16) : (ofGroups high low).groups = [high, low] := by
  have hjoin : ∀ g : UInt16, UInt16.ofNat ((UInt8.ofNat (g.toNat / 256)).toNat * 256 +
      (UInt8.ofNat (g.toNat % 256)).toNat) = g := by
    intro g
    have hg := g.toNat_lt
    apply UInt16.toNat_inj.mp
    rw [UInt16.toNat_ofNat', UInt8.toNat_ofNat', UInt8.toNat_ofNat']
    omega
  unfold groups ofGroups
  rw [hjoin, hjoin]

end Ipv4

/-! ## IPv6 -/

namespace Ipv6

/-- What cannot be read as one more group, or as more of the last one: a text that begins with no
digit and no dot, nor with a colon and a digit. -/
structure Closed (rest : List Char) : Prop where
  noDigit : NoDigit 16 rest
  noDot : ∀ c ∈ rest.head?, c ≠ '.'
  noGroup : ∀ tail, rest = ':' :: tail → NoDigit 16 tail

variable {n : ℕ} {rest : List Char}

theorem noDigit_ten (h : NoDigit 16 rest) : NoDigit 10 rest := by
  intro c hc
  have h16 := h c hc
  cases hd : Digits.hexDigit? c with
  | none => rfl
  | some d =>
    rw [hd] at h16
    simp only [Option.any_some, decide_eq_false_iff_not] at h16 ⊢
    omega

theorem read?_ipv4_of_noDigit (h : NoDigit 16 rest) : Ipv4.read? rest = none := by
  unfold Ipv4.read? Ipv4.readOctet?
  rw [readBounded?_eq_none (noDigit_ten h)]
  rfl

/-- Nothing more is read from a closed text. -/
theorem readGroups_closed (first : Bool) (h : Closed rest) :
    readGroups first n rest = ⟨[], false, rest⟩ := by
  have hread : ∀ {α : Type} (read : List Char → Option α),
      (∀ {cs}, NoDigit 16 cs → read cs = none) → behindColon first read rest = none := by
    intro α read hnone
    unfold behindColon
    split
    · exact hnone h.noDigit
    · cases rest with
      | nil => rfl
      | cons c tail =>
        by_cases hc : c = ':'
        · subst hc
          rw [expectChar?_cons_self, Option.bind_some]
          exact hnone (h.noGroup tail rfl)
        · rw [expectChar?_of_head? (by rintro _ ⟨⟩; exact hc)]
          rfl
  cases n with
  | zero => rfl
  | succ n =>
    rw [readGroups, hread _ read?_ipv4_of_noDigit, hread _ readBounded?_eq_none]
    simp

/-- What stands in front of a group. -/
def separator (first : Bool) : List Char := if first then [] else [':']

theorem behindColon_separator {α : Type} (first : Bool) (read : List Char → Option α)
    (cs : List Char) : behindColon first read (separator first ++ cs) = read cs := by
  cases first with
  | true => rfl
  | false => exact congrArg (Option.bind · read) (expectChar?_cons_self ':' cs)

/-- The next group is read as it is written. -/
theorem readGroups_cons (first : Bool) (g : UInt16) (hdigit : NoDigit 16 rest)
    (hdot : ∀ c ∈ rest.head?, c ≠ '.') :
    readGroups first (n + 1) (separator first ++ (Digits.hex g.toNat ++ rest)) =
      { readGroups false n rest with groups := g :: (readGroups false n rest).groups } := by
  have hlength : (Nat.toDigits 16 g.toNat).length ≤ 4 :=
    (Nat.length_toDigits_le_iff (by decide) (by decide)).mpr g.toNat_lt
  have hgroup : readBounded? 16 65535 (some 4) true (Digits.hex g.toNat ++ rest) =
      some (g.toNat, rest) :=
    readBounded?_toDigits (by decide) (by decide) (Nat.le_of_lt_succ g.toNat_lt)
      (by simpa using hlength) hdigit
  rw [readGroups, behindColon_separator, behindColon_separator,
    Ipv4.read?_hex_append hdigit hdot, ite_self, hgroup]
  dsimp only
  rw [UInt16.ofNat_toNat]

/-- Groups with a colon in front of each. -/
def furtherGroups (groups : List UInt16) : List Char :=
  groups.flatMap fun g => ':' :: Digits.hex g.toNat

theorem noDigit_colon (cs : List Char) : NoDigit 16 (':' :: cs) := by
  rintro c ⟨⟩
  decide

/-- Behind a group neither a digit nor a dot stands. -/
theorem not_continued (groups : List UInt16) (h : Closed rest) :
    NoDigit 16 (furtherGroups groups ++ rest) ∧
      ∀ c ∈ (furtherGroups groups ++ rest).head?, c ≠ '.' := by
  cases groups with
  | nil => exact ⟨h.noDigit, h.noDot⟩
  | cons g groups =>
    refine ⟨noDigit_colon _, ?_⟩
    rintro c ⟨⟩
    decide

theorem readGroups_further {groups : List UInt16} (hn : groups.length ≤ n) (h : Closed rest) :
    readGroups false n (furtherGroups groups ++ rest) = ⟨groups, false, rest⟩ := by
  induction groups generalizing n with
  | nil => exact readGroups_closed false h
  | cons g groups ih =>
    obtain ⟨n, rfl⟩ := Nat.exists_eq_succ_of_ne_zero (Nat.ne_zero_of_lt hn)
    have hsplit : furtherGroups (g :: groups) ++ rest =
        separator false ++ (Digits.hex g.toNat ++ (furtherGroups groups ++ rest)) := by
      simp [furtherGroups, separator]
    obtain ⟨hdigit, hdot⟩ := not_continued groups h
    rw [hsplit, readGroups_cons false g hdigit hdot, ih (Nat.le_of_succ_le_succ hn)]

theorem toList_joinGroups_cons (g : UInt16) (groups : List UInt16) :
    (joinGroups (g :: groups)).toList = Digits.hex g.toNat ++ furtherGroups groups := by
  induction groups generalizing g with
  | nil => simp [joinGroups, furtherGroups]
  | cons g' groups ih =>
    have hcons : joinGroups (g :: g' :: groups) =
        String.ofList (Digits.hex g.toNat) ++ ":" ++ joinGroups (g' :: groups) :=
      String.intercalate_cons_cons
    rw [hcons, String.toList_append, String.toList_append, ih, String.toList_ofList,
      List.append_assoc]
    rfl

/-- Groups are read as they are written, when there are not too many. -/
theorem readGroups_joinGroups (groups : List UInt16) (hn : groups.length ≤ n) (h : Closed rest) :
    readGroups true n ((joinGroups groups).toList ++ rest) = ⟨groups, false, rest⟩ := by
  cases groups with
  | nil => exact readGroups_closed true h
  | cons g groups =>
    obtain ⟨n, rfl⟩ := Nat.exists_eq_succ_of_ne_zero (Nat.ne_zero_of_lt hn)
    obtain ⟨hdigit, hdot⟩ := not_continued groups h
    rw [toList_joinGroups_cons, List.append_assoc]
    refine (readGroups_cons true g hdigit hdot).trans ?_
    rw [readGroups_further (Nat.le_of_succ_le_succ hn) h]

/-! ## Zeros that are left out -/

/-- The zeros that a list begins with. -/
theorem take_zeros (groups : List UInt16) :
    groups.take (groups.takeWhile (· = 0)).length =
      List.replicate (groups.takeWhile (· = 0)).length 0 := by
  rw [← List.prefix_iff_eq_take.mp (List.takeWhile_prefix _), List.eq_replicate_iff]
  exact ⟨rfl, fun g hg => of_decide_eq_true
    (List.mem_takeWhile_imp (p := fun g => decide (g = 0)) hg)⟩

/-- What is left out is a run of zeros. -/
theorem take_longestZeros (groups : List UInt16) :
    (groups.drop (longestZeros groups).1).take (longestZeros groups).2 =
      List.replicate (longestZeros groups).2 0 := by
  have hrun : ∀ (is : List ℕ) (best : ℕ × ℕ),
      (groups.drop best.1).take best.2 = List.replicate best.2 0 →
      let best' := is.foldl (fun best i =>
        let n := ((groups.drop i).takeWhile (· = 0)).length
        if best.2 < n then (i, n) else best) best
      (groups.drop best'.1).take best'.2 = List.replicate best'.2 0 := by
    intro is
    induction is with
    | nil => exact fun best h => h
    | cons i is ih =>
      intro best h
      refine ih _ ?_
      dsimp only
      split
      · exact take_zeros (groups.drop i)
      · exact h
  exact hrun (List.range groups.length) (0, 0) rfl

theorem split_at_longestZeros (groups : List UInt16) :
    groups.take (longestZeros groups).1 ++ (List.replicate (longestZeros groups).2 0 ++
      groups.drop ((longestZeros groups).1 + (longestZeros groups).2)) = groups := by
  rw [← take_longestZeros, ← List.drop_drop, List.take_append_drop, List.take_append_drop]

theorem closed_colons (cs : List Char) : Closed (':' :: ':' :: cs) where
  noDigit := noDigit_colon _
  noDot := by
    rintro c ⟨⟩
    decide
  noGroup := by
    rintro tail ⟨⟩
    exact noDigit_colon cs

/-- Two colons are read as the zeros that are missing. -/
theorem read?_colons {front back : List UInt16} {zeros : ℕ} (hzeros : 1 ≤ zeros)
    (hlength : (front ++ (List.replicate zeros 0 ++ back)).length = 8) (h : Closed rest) :
    read? ((joinGroups front).toList ++ ':' :: ':' :: ((joinGroups back).toList ++ rest)) =
      some (⟨front ++ (List.replicate zeros 0 ++ back), hlength⟩, rest) := by
  have hlengths : front.length + (zeros + back.length) = 8 := by simpa using hlength
  have hfront := readGroups_joinGroups front (n := 8) (by omega)
    (closed_colons ((joinGroups back).toList ++ rest))
  have hback := readGroups_joinGroups back (n := 7 - front.length) (by omega) h
  have hmissing : 8 - front.length - back.length = zeros := by omega
  unfold read?
  simp only [hfront, hback, hmissing]
  rw [dif_neg (by omega), if_neg (by decide)]
  simp only [List.append_assoc]
  rw [dif_pos hlength]

/-- The part of an address that stands for an IPv4 address is read as its last two groups. -/
theorem readGroups_mapped (ip : Ipv4) (h : NoDigit 10 rest) :
    readGroups true 7 ("ffff:".toList ++ (ip.text.toList ++ rest)) =
      ⟨0xFFFF :: ip.groups, true, rest⟩ := by
  have hsplit (cs : List Char) : "ffff:".toList ++ cs =
      separator true ++ (Digits.hex (0xFFFF : UInt16).toNat ++ ':' :: cs) := by
    have hhex : "ffff:".toList = separator true ++ Digits.hex (0xFFFF : UInt16).toNat ++ [':'] := by
      decide
    rw [hhex, List.append_assoc, List.append_assoc]
    rfl
  have hcolon (cs : List Char) : ':' :: cs = separator false ++ cs := rfl
  have hip : readGroups false 6 (':' :: (ip.text.toList ++ rest)) = ⟨ip.groups, true, rest⟩ := by
    rw [hcolon, readGroups, if_neg (by decide), behindColon_separator, Ipv4.read?_text ip h]
  rw [hsplit, readGroups_cons true 0xFFFF (noDigit_colon _) (by rintro c ⟨⟩; decide), hip]

theorem read?_mapped (high low : UInt16) (h : Closed rest) :
    read? ("::ffff:".toList ++ ((Ipv4.ofGroups high low).text.toList ++ rest)) =
      some (⟨[0, 0, 0, 0, 0, 0xFFFF, high, low], rfl⟩, rest) := by
  have hfront := readGroups_joinGroups [] (n := 8) (by decide)
    (closed_colons ("ffff:".toList ++ ((Ipv4.ofGroups high low).text.toList ++ rest)))
  have hback := readGroups_mapped (Ipv4.ofGroups high low) (noDigit_ten h.noDigit)
  have hcolons : "::ffff:".toList ++ ((Ipv4.ofGroups high low).text.toList ++ rest) =
      (joinGroups []).toList ++ ':' :: ':' :: ("ffff:".toList ++
        ((Ipv4.ofGroups high low).text.toList ++ rest)) := rfl
  rw [hcolons]
  unfold read?
  simp only [hfront]
  rw [dif_neg (by decide), if_neg (by decide)]
  simp only [List.length_nil, Nat.sub_zero, hback, Ipv4.groups_ofGroups]
  rfl

/-- What is written for an address is read as this address. -/
theorem read?_text (ip : Ipv6) (h : Closed rest) :
    read? (ip.text.toList ++ rest) = some (ip, rest) := by
  obtain ⟨groups, height⟩ := ip
  unfold text
  dsimp only
  split
  · rw [String.toList_append, List.append_assoc]
    exact read?_mapped _ _ h
  · split
    · next hzeros =>
      have hsplit := split_at_longestZeros groups
      have hzero : 1 ≤ (longestZeros groups).2 := Nat.le_of_lt hzeros
      rw [String.toList_append, String.toList_append, List.append_assoc, List.append_assoc]
      refine (read?_colons hzero (by rw [hsplit]; exact height) h).trans ?_
      simp only [hsplit]
    · have hall := readGroups_joinGroups groups (n := 8) (Nat.le_of_eq height) h
      unfold read?
      simp only [hall]
      rw [dif_pos height]

end Ipv6

end FrontDoor
