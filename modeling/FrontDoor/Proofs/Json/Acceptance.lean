import FrontDoor.Proofs.Dictionary
import FrontDoor.Proofs.Json.Grammar
import FrontDoor.Proofs.Json.RoundTrip
import Mathlib.Data.List.TakeWhile

/-!
# What the readers accept

A reader that takes something off the front of some bytes finds there a text of the grammar, and
where such a text stands it is taken off, whatever follows. Each nonterminal has this as one
equivalence, from hexadecimal numbers up to string maps (`read?_iff_grammar`).
-/

namespace FrontDoor.Json

open String (utf8EncodeChar)

variable {bs rest : Bytes}

/-! ## Escapes -/

theorem readHex4?_eq_some_iff {n : Nat} :
    readHex4? bs = some (n, rest) ↔ ∃ x, Hex4 x n ∧ bs = x ++ rest := by
  constructor
  · intro h
    unfold readHex4? at h
    split at h
    · simp only [Option.map_eq_some_iff, Prod.mk.injEq] at h
      obtain ⟨m, hm, rfl, rfl⟩ := h
      obtain ⟨i, j, k, l, hi, hj, hk, hl, rfl⟩ := Digits.value?_four.mp hm
      exact ⟨_, .mk hi hj hk hl, rfl⟩
    · cases h
  · rintro ⟨_, ⟨hi, hj, hk, hl⟩, rfl⟩
    have hvalue := Digits.value?_four.mpr ⟨_, _, _, _, hi, hj, hk, hl, rfl⟩
    simp only [List.cons_append, List.nil_append, readHex4?, hvalue]
    rfl

theorem readUnicode?_eq_some_iff {c : Char} :
    readUnicode? bs = some (c, rest) ↔ ∃ x, UnicodeText x c ∧ bs = x ++ rest := by
  constructor
  · intro h
    unfold readUnicode? at h
    split at h
    · cases h
    next n tail hn =>
    obtain ⟨x, hx, rfl⟩ := readHex4?_eq_some_iff.mp hn
    split at h
    · cases h
    next hlow =>
    split at h
    · next hhigh =>
      split at h
      · next s u low =>
        split at h
        · next hsu =>
          obtain ⟨rfl, rfl⟩ := hsu
          split at h
          · cases h
          next m rest' hm =>
          obtain ⟨y, hy, rfl⟩ := readHex4?_eq_some_iff.mp hm
          split at h
          · next hrange =>
            obtain ⟨rfl, rfl⟩ := Prod.mk.inj (Option.some.inj h)
            exact ⟨_, .pair hx hy hhigh hrange, by simp⟩
          · cases h
        · cases h
      · cases h
    · next hhigh =>
      cases h
      exact ⟨x, .unit hx (by omega), rfl⟩
  · rintro ⟨x, hx, rfl⟩
    cases hx with
    | @unit x n hx hn =>
      have hread := readHex4?_eq_some_iff.mpr ⟨x, hx, (rfl : x ++ rest = x ++ rest)⟩
      rw [readUnicode?, hread]
      dsimp only
      rw [if_neg (by omega), if_neg (by omega)]
    | @pair x y n m hx hy hn hm =>
      have hlow := readHex4?_eq_some_iff.mpr ⟨y, hy, (rfl : y ++ rest = y ++ rest)⟩
      rw [List.append_assoc, readUnicode?, readHex4?_eq_some_iff.mpr ⟨x, hx, rfl⟩]
      dsimp only [List.cons_append]
      rw [if_neg (by omega), if_pos hn, if_pos ⟨rfl, rfl⟩, hlow]
      dsimp only
      rw [if_pos hm]

theorem shortEscape?_eq_some_iff {b : UInt8} {c : Char} :
    shortEscape? b = some c ↔ ∃ l, (l, c) ∈ escapeLetters ∧ b = asciiByte l := by
  constructor
  · intro h
    unfold shortEscape? at h
    iterate 8
      split at h
      · next hb =>
        cases h
        exact ⟨_, by simp [escapeLetters], hb⟩
    cases h
  · rintro ⟨l, hl, rfl⟩
    have hall : ∀ e ∈ escapeLetters, shortEscape? (asciiByte e.1) = some e.2 := by decide
    exact hall _ hl

theorem readEscape?_eq_some_iff {c : Char} :
    readEscape? bs = some (c, rest) ↔ ∃ x, EscapeText x c ∧ bs = x ++ rest := by
  constructor
  · intro h
    cases bs with
    | nil => cases h
    | cons b bs =>
      rw [readEscape?] at h
      split at h
      · next hb =>
        obtain ⟨x, hx, rfl⟩ := readUnicode?_eq_some_iff.mp h
        exact ⟨_, .unicode hx, by rw [hb]; rfl⟩
      · simp only [Option.map_eq_some_iff, Prod.mk.injEq] at h
        obtain ⟨c, hc, rfl, rfl⟩ := h
        obtain ⟨l, hl, rfl⟩ := shortEscape?_eq_some_iff.mp hc
        exact ⟨_, .letter hl, rfl⟩
  · rintro ⟨x, hx, rfl⟩
    cases hx with
    | @letter l c hl =>
      have hall : ∀ e ∈ escapeLetters, asciiByte e.1 ≠ asciiByte 'u' := by decide
      rw [List.singleton_append, readEscape?, if_neg (hall _ hl),
        shortEscape?_eq_some_iff.mpr ⟨l, hl, rfl⟩]
      rfl
    | @unicode x c hx =>
      rw [List.cons_append, readEscape?, if_pos rfl]
      exact readUnicode?_eq_some_iff.mpr ⟨x, hx, rfl⟩

/-! ## Strings -/

theorem readStringOnto_charText (done : List Char) {x : Bytes} {c : Char} (h : CharText x c)
    (bs : Bytes) : readStringOnto done (x ++ bs) = readStringOnto (c :: done) bs := by
  cases h with
  | plain h₁ h₂ h₃ => exact readStringOnto_char done h₁ h₂ h₃ bs
  | @escaped x c hx =>
    rw [List.cons_append]
    exact readStringOnto_escape done (readEscape?_eq_some_iff.mpr ⟨x, hx, rfl⟩)

theorem readStringOnto_charsText (done : List Char) {x : Bytes} {cs : List Char}
    (h : CharsText x cs) (bs : Bytes) :
    readStringOnto done (x ++ bs) = readStringOnto (cs.reverse ++ done) bs := by
  induction h generalizing done with
  | nil => rfl
  | cons hc _ ih =>
    rw [List.append_assoc, readStringOnto_charText done hc, ih, List.reverse_cons,
      List.append_assoc]
    rfl

/-- A character that a reader of strings meets as it is may stand there as it is. -/
theorem charText_of_next {b : UInt8} {c : Char} (h₁ : b ≠ asciiByte '"') (h₂ : b ≠ asciiByte '\\')
    (h₃ : 0x20 ≤ b.toNat) (h : Utf8.next b bs = (some c, rest)) :
    CharText (utf8EncodeChar c) c ∧ b :: bs = utf8EncodeChar c ++ rest := by
  have hbytes := Utf8.encodeChar_of_next h
  -- An ASCII character would be its own byte.
  have hbyte : c.toNat < 0x80 → b = asciiByte c := by
    intro hascii
    rw [Utf8.encodeChar_ascii hascii] at hbytes
    exact (List.cons.inj hbytes).1
  refine ⟨.plain ?_ ?_ ?_, hbytes⟩
  · rintro rfl
    exact h₁ (hbyte (by decide))
  · rintro rfl
    exact h₂ (hbyte (by decide))
  · by_contra hlt
    have hc := hbyte (by omega)
    rw [hc, asciiByte, Utf8.toNat_ofNat_lead (by omega)] at h₃
    exact hlt h₃

theorem exists_charsText_of_readStringOnto {done : List Char} {s : String}
    (h : readStringOnto done bs = some (s, rest)) :
    ∃ x cs, CharsText x cs ∧ bs = x ++ asciiByte '"' :: rest ∧
      s = String.ofList (done.reverse ++ cs) := by
  fun_induction readStringOnto done bs with
  | case1 => cases h
  | case2 done bs =>
    cases h
    exact ⟨[], [], .nil, rfl, by rw [List.append_nil]⟩
  | case3 done bs c tail he _ ih =>
    obtain ⟨x, cs, hx, rfl, rfl⟩ := ih h
    obtain ⟨y, hy, rfl⟩ := readEscape?_eq_some_iff.mp he
    refine ⟨_, c :: cs, .cons (.escaped hy) hx, by simp, ?_⟩
    rw [List.reverse_cons, List.append_assoc]
    rfl
  | case4 => cases h
  | case5 => cases h
  | case6 done b bs h₁ h₂ h₃ c tail hn ih =>
    obtain ⟨x, cs, hx, rfl, rfl⟩ := ih h
    obtain ⟨hc, hbytes⟩ := charText_of_next h₁ h₂ (by omega) hn
    refine ⟨_, c :: cs, .cons hc hx, by rw [hbytes, List.append_assoc], ?_⟩
    rw [List.reverse_cons, List.append_assoc]
    rfl
  | case7 => cases h

theorem readString?_eq_some_iff {s : String} :
    readString? bs = some (s, rest) ↔ ∃ x, StringText x s ∧ bs = x ++ rest := by
  constructor
  · intro h
    cases bs with
    | nil => cases h
    | cons b bs =>
      rw [readString?] at h
      split at h
      · next hb =>
        obtain ⟨x, cs, hx, rfl, rfl⟩ := exists_charsText_of_readStringOnto h
        exact ⟨_, .mk hx, by rw [hb]; simp⟩
      · cases h
  · rintro ⟨x, @⟨x, cs, hx⟩, rfl⟩
    rw [List.cons_append, List.append_assoc, readString?, if_pos rfl,
      readStringOnto_charsText [] hx, List.singleton_append, readStringOnto_quote, List.append_nil,
      List.reverse_reverse]

/-! ## White space -/

theorem isBlank_iff {b : UInt8} :
    isBlank b = true ↔ b = 0x20 ∨ b = 0x09 ∨ b = 0x0A ∨ b = 0x0D := by
  simp only [isBlank, Bool.or_eq_true, decide_eq_true_eq, or_assoc]

theorem exists_blanks_append (bs : Bytes) : ∃ w, Blanks w ∧ bs = w ++ skipBlanks bs := by
  refine ⟨bs.takeWhile isBlank, fun b hb => ?_, List.takeWhile_append_dropWhile.symm⟩
  exact isBlank_iff.mp (List.mem_takeWhile_imp hb)

theorem skipBlanks_append {w : Bytes} (hw : Blanks w) {b : UInt8} (hb : isBlank b = false) :
    skipBlanks (w ++ b :: bs) = b :: bs := by
  have hblank : ∀ b ∈ w, isBlank b = true := fun b h => isBlank_iff.mpr (hw b h)
  rw [skipBlanks, List.dropWhile_append_of_pos hblank,
    List.dropWhile_cons_of_neg (by rw [hb]; exact Bool.false_ne_true)]

theorem expect?_append {w : Bytes} (hw : Blanks w) {b b' : UInt8} (hb' : isBlank b' = false) :
    expect? b (w ++ b' :: bs) = if b' = b then some bs else none := by
  rw [expect?, skipBlanks_append hw hb']

theorem expect?_eq_some_iff {b : UInt8} (hb : isBlank b = false) :
    expect? b bs = some rest ↔ ∃ w, Blanks w ∧ bs = w ++ b :: rest := by
  constructor
  · intro h
    obtain ⟨w, hw, hbs⟩ := exists_blanks_append bs
    unfold expect? at h
    split at h
    · next heq =>
      split at h
      · next hb' =>
        cases h
        exact ⟨w, hw, by rw [hbs, heq, hb']⟩
      · cases h
    · cases h
  · rintro ⟨w, hw, rfl⟩
    rw [expect?_append hw hb, if_pos rfl]

theorem readString?_skipBlanks_eq_some_iff {s : String} :
    readString? (skipBlanks bs) = some (s, rest) ↔
      ∃ w x, Blanks w ∧ StringText x s ∧ bs = w ++ (x ++ rest) := by
  constructor
  · intro h
    obtain ⟨w, hw, hbs⟩ := exists_blanks_append bs
    obtain ⟨x, hx, heq⟩ := readString?_eq_some_iff.mp h
    exact ⟨w, x, hw, hx, by rw [← heq]; exact hbs⟩
  · rintro ⟨w, x, hw, hx, rfl⟩
    obtain ⟨y, hy⟩ := hx.exists_cons
    have hskip : skipBlanks (w ++ (x ++ rest)) = x ++ rest := by
      rw [hy, List.cons_append]
      exact skipBlanks_append hw (by decide)
    rw [hskip]
    exact readString?_eq_some_iff.mpr ⟨x, hx, rfl⟩

/-! ## Objects -/

theorem readMember?_eq_some_iff {m : String × String} :
    readMember? bs = some (m, rest) ↔ ∃ x, MemberText x m ∧ bs = x ++ rest := by
  obtain ⟨name, value⟩ := m
  simp only [readMember?, Option.bind_eq_bind, Option.bind_eq_some_iff, Prod.exists,
    Option.some.injEq, Prod.mk.injEq, readString?_skipBlanks_eq_some_iff,
    expect?_eq_some_iff (show isBlank (asciiByte ':') = false by decide)]
  constructor
  · rintro ⟨_, _, ⟨w₁, x, hw₁, hx, rfl⟩, _, ⟨w₂, hw₂, rfl⟩, _, _, ⟨w₃, y, hw₃, hy, rfl⟩,
      ⟨rfl, rfl⟩, rfl⟩
    exact ⟨_, .mk hw₁ hx hw₂ hw₃ hy, by simp⟩
  · rintro ⟨_, ⟨hw₁, hx, hw₂, hw₃, hy⟩, rfl⟩
    simp only [List.append_assoc, List.cons_append]
    exact ⟨_, _, ⟨_, _, hw₁, hx, rfl⟩, _, ⟨_, hw₂, rfl⟩, _, _, ⟨_, _, hw₃, hy, rfl⟩,
      ⟨rfl, rfl⟩, rfl⟩

theorem readMembersOnto_membersText (done : List (String × String)) {x w : Bytes}
    {ms : List (String × String)} (h : MembersText x ms) (hw : Blanks w) (bs : Bytes) :
    readMembersOnto done (x ++ (w ++ asciiByte '\x7d' :: bs)) = some (done.reverse ++ ms, bs) := by
  induction h generalizing done with
  | @one x m hm =>
    have hcomma : expect? (asciiByte ',') (w ++ asciiByte '\x7d' :: bs) = none := by
      rw [expect?_append hw (by decide), if_neg (by decide)]
    rw [readMembersOnto_close done (readMember?_eq_some_iff.mpr ⟨x, hm, rfl⟩) hcomma,
      expect?_append hw (by decide), if_pos rfl, List.reverse_cons]
    rfl
  | @more x v y m ms hm hv _ ih =>
    rw [List.append_assoc, List.append_assoc, List.cons_append,
      readMembersOnto_comma done (readMember?_eq_some_iff.mpr ⟨x, hm, rfl⟩)
        ((expect?_eq_some_iff (by decide)).mpr ⟨v, hv, rfl⟩),
      ih, List.reverse_cons, List.append_assoc]
    rfl

theorem exists_membersText_of_readMembersOnto {done ms : List (String × String)}
    (h : readMembersOnto done bs = some (ms, rest)) :
    ∃ x w ms', MembersText x ms' ∧ Blanks w ∧ bs = x ++ (w ++ asciiByte '\x7d' :: rest) ∧
      ms = done.reverse ++ ms' := by
  fun_induction readMembersOnto done bs with
  | case1 => cases h
  | case2 done bs m tail hm tail' hc ih =>
    obtain ⟨x, hx, rfl⟩ := readMember?_eq_some_iff.mp hm
    obtain ⟨v, hv, rfl⟩ := (expect?_eq_some_iff (by decide)).mp hc
    obtain ⟨y, w, ms', hy, hw, rfl, rfl⟩ := ih h
    refine ⟨_, w, m :: ms', .more hx hv hy, hw, by simp, ?_⟩
    rw [List.reverse_cons, List.append_assoc]
    rfl
  | case3 done bs m tail hm hc =>
    obtain ⟨x, hx, rfl⟩ := readMember?_eq_some_iff.mp hm
    simp only [Option.map_eq_some_iff, Prod.mk.injEq] at h
    obtain ⟨rest, hclose, rfl, rfl⟩ := h
    obtain ⟨w, hw, rfl⟩ := (expect?_eq_some_iff (by decide)).mp hclose
    exact ⟨x, w, [m], .one hx, hw, rfl, List.reverse_cons⟩

/-- The readers begin behind the opening brace. -/
theorem readMembers?_eq_some_iff {ms : List (String × String)} :
    readMembers? bs = some (ms, rest) ↔
      ∃ x, ObjectText (asciiByte '\x7b' :: x) ms ∧ bs = x ++ rest := by
  constructor
  · intro h
    unfold readMembers? at h
    split at h
    · next hclose =>
      cases h
      obtain ⟨w, hw, rfl⟩ := (expect?_eq_some_iff (by decide)).mp hclose
      exact ⟨_, .empty hw, by simp⟩
    · obtain ⟨x, w, ms, hx, hw, rfl, rfl⟩ := exists_membersText_of_readMembersOnto h
      exact ⟨_, .members hx hw, by simp⟩
  · rintro ⟨x, hx, rfl⟩
    cases hx with
    | @empty w hw =>
      rw [List.append_assoc, readMembers?, List.singleton_append, expect?_append hw (by decide),
        if_pos rfl]
    | @members x w ms hx hw =>
      obtain ⟨v, y, hv, hxy⟩ := hx.exists_cons
      have hopen : expect? (asciiByte '\x7d') (x ++ (w ++ asciiByte '\x7d' :: rest)) = none := by
        rw [hxy, List.append_assoc, List.cons_append, expect?_append hv (by decide),
          if_neg (by decide)]
      rw [List.append_assoc, List.append_assoc, List.singleton_append, readMembers?, hopen]
      exact readMembersOnto_membersText [] hx hw rest

theorem ObjectText.exists_brace {x : Bytes} {ms : List (String × String)} (h : ObjectText x ms) :
    ∃ y, x = asciiByte '\x7b' :: y := by
  cases h <;> exact ⟨_, rfl⟩

/-- What a text of a string map lists: nothing for `null`, and the members of an object. -/
def ListsMembers (x : Bytes) (ms : List (String × String)) : Prop :=
  (x = nullText ∧ ms = []) ∨ ObjectText x ms

theorem readMap?_eq_some_iff {ms : List (String × String)} :
    readMap? bs = some (ms, rest) ↔
      ∃ w x, Blanks w ∧ ListsMembers x ms ∧ bs = w ++ (x ++ rest) := by
  constructor
  · intro h
    obtain ⟨w, hw, hbs⟩ := exists_blanks_append bs
    rw [hbs]
    unfold readMap? at h
    split at h
    · next b tail heq =>
      rw [heq]
      split at h
      · next hb =>
        obtain ⟨x, hx, rfl⟩ := readMembers?_eq_some_iff.mp h
        exact ⟨w, _, hw, .inr hx, by rw [hb]; rfl⟩
      · split at h
        · next hnull =>
          cases h
          exact ⟨w, nullText, hw, .inl ⟨rfl, rfl⟩, by rw [hnull]; rfl⟩
        · cases h
    · cases h
  · rintro ⟨w, x, hw, ⟨rfl, rfl⟩ | hx, rfl⟩
    · have hskip : skipBlanks (w ++ (nullText ++ rest)) = nullText ++ rest :=
        skipBlanks_append hw (by decide)
      rw [readMap?, hskip]
      rfl
    · obtain ⟨y, rfl⟩ := hx.exists_brace
      have hskip : skipBlanks (w ++ (asciiByte '\x7b' :: y ++ rest)) =
          asciiByte '\x7b' :: (y ++ rest) := skipBlanks_append hw (by decide)
      rw [readMap?, hskip]
      dsimp only
      rw [if_pos rfl]
      exact readMembers?_eq_some_iff.mpr ⟨y, hx, rfl⟩

/-! ## String maps -/

theorem mapText_iff {x : Bytes} {m : StringMap} :
    MapText x m ↔ ∃ ms, ListsMembers x ms ∧ Dictionary.ofList ms = m := by
  constructor
  · rintro (⟨rfl, hm⟩ | @⟨ms, hx, hm⟩)
    · exact ⟨[], .inl ⟨rfl, rfl⟩, Dictionary.ext_get? fun k => (hm k).symm⟩
    · refine ⟨ms, .inr hx, Dictionary.ext_get? fun k => ?_⟩
      ext v
      exact Dictionary.get?_ofList_eq_some_iff.trans (hm k v).symm
  · rintro ⟨ms, ⟨rfl, rfl⟩ | hx, rfl⟩
    · exact .null rfl fun k => rfl
    · exact .object hx fun k v => Dictionary.get?_ofList_eq_some_iff

theorem read?_eq_some_iff {m : StringMap} :
    StringMap.read? bs = some m ↔ ∃ w x t, bs = w ++ x ++ t ∧ Blanks w ∧ MapText x m := by
  simp only [StringMap.read?, Option.map_eq_some_iff, Prod.exists, readMap?_eq_some_iff,
    mapText_iff]
  constructor
  · rintro ⟨ms, t, ⟨w, x, hw, hx, rfl⟩, rfl⟩
    exact ⟨w, x, t, by rw [List.append_assoc], hw, ms, hx, rfl⟩
  · rintro ⟨w, x, t, rfl, hw, ms, hx, rfl⟩
    exact ⟨ms, t, ⟨w, x, hw, hx, by rw [List.append_assoc]⟩, rfl⟩

/-- **Bodies are accepted exactly.** A body is read as a map when it is white space, a text of this
map and anything at all; in every other case it is refused. What stands behind the text has no say
in a success. -/
theorem read?_iff_grammar :
    (∀ (b : Bytes) (m : StringMap),
      StringMap.read? b = some m ↔ ∃ w x t, b = w ++ x ++ t ∧ Blanks w ∧ MapText x m) ∧
    (∀ b : Bytes,
      StringMap.read? b = none ↔ ¬∃ m w x t, b = w ++ x ++ t ∧ Blanks w ∧ MapText x m) ∧
    ∀ (b : Bytes) (m : StringMap), StringMap.read? b = some m →
      ∃ front back, b = front ++ back ∧ ∀ t, StringMap.read? (front ++ t) = some m := by
  refine ⟨fun b m => read?_eq_some_iff, fun b => ?_, fun b m h => ?_⟩
  · rw [Option.eq_none_iff_forall_ne_some, not_exists]
    exact forall_congr' fun m => not_congr read?_eq_some_iff
  · obtain ⟨w, x, t, rfl, hw, hx⟩ := read?_eq_some_iff.mp h
    exact ⟨w ++ x, t, rfl, fun t' => read?_eq_some_iff.mpr ⟨w, x, t', rfl, hw, hx⟩⟩

/-- A name comes twice, once with an escape in it, a value is a surrogate pair, and what follows the
object is neither JSON nor UTF-8. -/
theorem read?_of_repeated_name :
    let body := Utf8.encode
      "\t\x7b\"a\": \"1\", \"\\u0061\":\"\\ud83d\\uDE00\" \x7d".toList ++ [0x7D, 0xFF]
    let m : StringMap := .ofList [("a", "😀")]
    StringMap.read? body = some m ∧
      ∃ front back, body = front ++ back ∧ ∀ t, StringMap.read? (front ++ t) = some m := by
  intro body m
  have hread : StringMap.read? body = some m := by decide +kernel
  exact ⟨hread, read?_iff_grammar.2.2 body m hread⟩

end FrontDoor.Json
