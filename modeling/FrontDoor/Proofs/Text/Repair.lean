import FrontDoor.Proofs.Text.Utf8
import Mathlib.Logic.Basic
import Mathlib.Tactic.ByContra

/-!
# Replacing ill-formed bytes

The Unicode standard replaces every maximal subpart of ill-formed bytes by one U+FFFD. `Repairs` is
this rule, said by the bytes of characters alone. Lossy decoding follows it and nothing else
(`repairs_iff`): a reader that gives a character up has read a maximal subpart, since what it read
can be completed to a character and would no longer be with the byte at which it stopped.
-/

namespace FrontDoor.Utf8

open String (utf8EncodeChar)

/-- Whether some character begins with these bytes. -/
def Begins (p : Bytes) : Prop := ∃ c, p <+: utf8EncodeChar c

/-- Where no character stands in front of `sub ++ rest`, the longest stretch there with which one
begins, or a single byte when none begins with it. -/
structure MaximalSubpart (sub rest : Bytes) : Prop where
  no_char : ∀ c, ¬utf8EncodeChar c <+: sub ++ rest
  ne_nil : sub ≠ []
  begins_or_single : Begins sub ∨ sub.length = 1
  longest : ∀ p, p <+: sub ++ rest → Begins p → p.length ≤ sub.length

/-- A text with its characters read from their bytes and U+FFFD for each maximal subpart. -/
inductive Repairs : Bytes → List Char → Prop where
  | nil : Repairs [] []
  | char {c : Char} {bs : Bytes} {cs : List Char} : Repairs bs cs →
      Repairs (utf8EncodeChar c ++ bs) (c :: cs)
  | illFormed {sub bs : Bytes} {cs : List Char} : MaximalSubpart sub bs → Repairs bs cs →
      Repairs (sub ++ bs) ('\uFFFD' :: cs)

theorem Begins.of_prefix {p q : Bytes} (h : Begins q) (hp : p <+: q) : Begins p := by
  obtain ⟨c, hc⟩ := h
  exact ⟨c, hp.trans hc⟩

theorem not_prefix_of_next {b : UInt8} {bs rest : Bytes} (h : next b bs = (none, rest)) (c : Char) :
    ¬utf8EncodeChar c <+: b :: bs := by
  rintro ⟨t, ht⟩
  rw [next_of_encodeChar ht.symm] at h
  cases h

/-! ## A reader in the middle of a character -/

theorem exists_completion (low high n bits : Nat) (h : low ≤ high) (h' : high < 0x100) :
    ∃ t c, readTails low high n bits t = (some c, []) := by
  induction n generalizing low high bits with
  | zero => exact ⟨[], _, rfl⟩
  | succ n ih =>
    obtain ⟨t, c, ht⟩ := ih 0x80 0xBF (bits * 64 + (low - 0x80)) (by omega) (by omega)
    have hlow := toNat_ofNat_lead (show low < 0x100 by omega)
    exact ⟨UInt8.ofNat low :: t, c, by rw [readTails, hlow, if_pos ⟨Nat.le_refl _, h⟩, ht]⟩

/-- Behind `b :: mid` the reader owes `n + 1` bytes, the next of them between `low` and `high`. -/
structure Pending (b : UInt8) (mid : Bytes) (low high n bits : Nat) : Prop where
  low_le : low ≤ high
  high_lt : high < 0x100
  next_eq : ∀ t, next b (mid ++ t) = readTails low high (n + 1) bits t

variable {b : UInt8} {mid bs rest : Bytes} {low high n bits : Nat}

theorem Pending.begins (h : Pending b mid low high n bits) : Begins (b :: mid) := by
  obtain ⟨t, c, ht⟩ := exists_completion low high (n + 1) bits h.low_le h.high_lt
  have hbytes := encodeChar_of_next ((h.next_eq t).trans ht)
  rw [List.append_nil] at hbytes
  exact ⟨c, t, hbytes⟩

theorem readTails_of_out_of_range (h : ∀ x t, bs = x :: t → ¬(low ≤ x.toNat ∧ x.toNat ≤ high)) :
    readTails low high (n + 1) bits bs = (none, bs) := by
  cases bs with
  | nil => rfl
  | cons x t => rw [readTails, if_neg (h x t rfl)]

theorem Pending.not_begins (h : Pending b mid low high n bits) {x : UInt8}
    (hx : ¬(low ≤ x.toNat ∧ x.toNat ≤ high)) : ¬Begins (b :: mid ++ [x]) := by
  rintro ⟨c, t, ht⟩
  have hread : next b (mid ++ x :: t) = (some c, []) :=
    next_of_encodeChar (by rw [← ht, List.append_nil]; simp)
  rw [h.next_eq, readTails, if_neg hx] at hread
  cases hread

/-- A reader that cannot go on has read a maximal subpart. -/
theorem Pending.maximalSubpart (h : Pending b mid low high n bits)
    (hbs : ∀ x t, bs = x :: t → ¬(low ≤ x.toNat ∧ x.toNat ≤ high)) :
    MaximalSubpart (b :: mid) bs where
  no_char := not_prefix_of_next ((h.next_eq bs).trans (readTails_of_out_of_range hbs))
  ne_nil := List.cons_ne_nil _ _
  begins_or_single := .inl h.begins
  longest := by
    intro p hp hbegins
    by_contra hlt
    have hfront : b :: mid <+: p :=
      List.prefix_of_prefix_length_le (List.prefix_append _ _) hp (by omega)
    obtain ⟨s, rfl⟩ := hfront
    cases s with
    | nil => simp at hlt
    | cons x s =>
      rw [List.prefix_append_right_inj] at hp
      obtain ⟨t, ht⟩ := hp
      refine h.not_begins (hbs x (s ++ t) ht.symm) (hbegins.of_prefix ?_)
      exact (List.prefix_append_right_inj _).mpr ⟨s, rfl⟩

theorem Pending.step (h : Pending b mid low high (n + 1) bits) {x : UInt8}
    (hx : low ≤ x.toNat ∧ x.toNat ≤ high) :
    Pending b (mid ++ [x]) 0x80 0xBF n (bits * 64 + (x.toNat - 0x80)) where
  low_le := by omega
  high_lt := by omega
  next_eq t := by rw [List.append_assoc, List.singleton_append, h.next_eq, readTails, if_pos hx]

theorem Pending.exists_maximalSubpart (h : Pending b mid low high n bits)
    (hread : readTails low high (n + 1) bits bs = (none, rest)) :
    ∃ sub, b :: mid ++ bs = sub ++ rest ∧ MaximalSubpart sub rest := by
  induction n generalizing mid low high bits bs with
  | zero =>
    have hbs : ∀ x t, bs = x :: t → ¬(low ≤ x.toNat ∧ x.toNat ≤ high) := by
      rintro x t rfl hx
      rw [readTails, if_pos hx] at hread
      cases hread
    rw [readTails_of_out_of_range hbs] at hread
    cases hread
    exact ⟨b :: mid, rfl, h.maximalSubpart hbs⟩
  | succ n ih =>
    by_cases hbs : ∀ x t, bs = x :: t → ¬(low ≤ x.toNat ∧ x.toNat ≤ high)
    · rw [readTails_of_out_of_range hbs] at hread
      cases hread
      exact ⟨b :: mid, rfl, h.maximalSubpart hbs⟩
    · simp only [not_forall, not_not] at hbs
      obtain ⟨x, t, rfl, hx⟩ := hbs
      rw [readTails, if_pos hx] at hread
      obtain ⟨sub, hsub, hmax⟩ := ih (h.step hx) hread
      exact ⟨sub, by rw [← hsub]; simp, hmax⟩

theorem lead?_range {b : Nat} {l : Lead} (h : lead? b = some l) :
    l.low ≤ l.high ∧ l.high ≤ 0xBF := by
  unfold lead? at h
  repeat' split at h
  all_goals cases h
  all_goals simp

/-- What the reader passes over without a character is a maximal subpart. -/
theorem exists_maximalSubpart_of_next (h : next b bs = (none, rest)) :
    ∃ sub, b :: bs = sub ++ rest ∧ MaximalSubpart sub rest := by
  cases hl : lead? b.toNat with
  | none =>
    have hnext : ∀ t, next b t = (none, t) := by
      intro t
      rw [next, hl]
    have hrest := h
    rw [hnext] at hrest
    cases hrest
    refine ⟨[b], rfl, ⟨not_prefix_of_next h, List.cons_ne_nil _ _, .inr rfl, ?_⟩⟩
    intro p hp hbegins
    cases p with
    | nil => exact Nat.zero_le _
    | cons x p =>
      obtain rfl := (List.cons_prefix_cons.mp hp).1
      obtain ⟨c, t, ht⟩ := hbegins
      have hread : next x (p ++ t) = (some c, []) :=
        next_of_encodeChar (by rw [List.append_nil, ← ht]; rfl)
      rw [hnext] at hread
      cases hread
  | some l =>
    have hnext : ∀ t, next b t = readTails l.low l.high l.tails l.bits t := by
      intro t
      rw [next, hl]
    obtain ⟨hlow, hhigh⟩ := lead?_range hl
    rw [hnext] at h
    cases htails : l.tails with
    | zero =>
      rw [htails] at h
      cases h
    | succ n =>
      rw [htails] at h hnext
      have hpending : Pending b [] l.low l.high n l.bits := ⟨hlow, by omega, hnext⟩
      exact hpending.exists_maximalSubpart h

/-! ## Whole texts -/

theorem MaximalSubpart.length_le {sub sub' rest' : Bytes} (h : MaximalSubpart sub rest)
    (h' : MaximalSubpart sub' rest') (heq : sub ++ rest = sub' ++ rest') :
    sub'.length ≤ sub.length := by
  rcases h'.begins_or_single with hbegins | hsingle
  · exact h.longest sub' (heq ▸ List.prefix_append _ _) hbegins
  · rw [hsingle]
    exact List.length_pos_iff.mpr h.ne_nil

theorem next_of_maximalSubpart (h : MaximalSubpart (b :: mid) rest) :
    next b (mid ++ rest) = (none, rest) := by
  cases hc : next b (mid ++ rest) with
  | mk c? rest' =>
    cases c? with
    | some c =>
      exact absurd ⟨rest', (encodeChar_of_next hc).symm⟩ (h.no_char c)
    | none =>
      obtain ⟨sub, heq, hsub⟩ := exists_maximalSubpart_of_next hc
      have hlength : (b :: mid).length = sub.length :=
        Nat.le_antisymm (hsub.length_le h heq.symm) (h.length_le hsub heq)
      obtain ⟨-, rfl⟩ := List.append_inj heq hlength
      rfl

theorem lossy_cons (b : UInt8) (bs : Bytes) :
    lossy (b :: bs) = (next b bs).1.getD '\uFFFD' :: lossy (next b bs).2 := by
  rw [lossy, read_cons, List.map_cons]
  rfl

/-- Lossy decoding follows the rule, and the rule leaves no choice. -/
theorem repairs_iff {bs : Bytes} {cs : List Char} : Repairs bs cs ↔ cs = lossy bs := by
  constructor
  · intro h
    induction h with
    | nil => rw [lossy, read_nil, List.map_nil]
    | @char c bs cs _ ih =>
      rw [ih, lossy, lossy, read_encodeChar_append]
      rfl
    | @illFormed sub bs cs hsub _ ih =>
      cases sub with
      | nil => exact absurd rfl hsub.ne_nil
      | cons b mid =>
        rw [List.cons_append, lossy_cons, next_of_maximalSubpart hsub, ih]
        rfl
  · rintro rfl
    induction hn : bs.length using Nat.strongRecOn generalizing bs with
    | ind n ih =>
      cases bs with
      | nil =>
        rw [lossy, read_nil, List.map_nil]
        exact .nil
      | cons b bs =>
        have hrest : Repairs (next b bs).2 (lossy (next b bs).2) :=
          ih _ (by rw [← hn]; exact Nat.lt_succ_of_le (length_next_le b bs)) rfl
        rw [lossy_cons]
        cases hc : next b bs with
        | mk c? rest =>
          rw [hc] at hrest
          cases c? with
          | some c =>
            rw [encodeChar_of_next hc]
            exact .char hrest
          | none =>
            obtain ⟨sub, heq, hsub⟩ := exists_maximalSubpart_of_next hc
            rw [heq]
            exact .illFormed hsub hrest

/-- Bytes are well formed when they are the bytes of a text. -/
theorem valid_iff {bs : Bytes} : valid bs = true ↔ ∃ cs, bs = encode cs := by
  constructor
  · intro h
    exact ⟨lossy bs, (encode_lossy h).symm⟩
  · rintro ⟨cs, rfl⟩
    exact valid_encode cs

end FrontDoor.Utf8
