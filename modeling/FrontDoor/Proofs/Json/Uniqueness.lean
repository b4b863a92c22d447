import FrontDoor.Proofs.Json.Values
import Mathlib.Data.Bool.AllAny

/-!
# A text has one value

The grammar of values is unambiguous: of two texts at the front of the same bytes, with nothing
behind them that a number could go on with, one is the other and denotes the same
(`valueText_sole`). What holds of pieces holds of pieces in a list or between brackets, where commas
and brackets keep them apart. So a document has one value (`documentText_unique`).
-/

namespace FrontDoor.Json

/-! ## Where a text ends -/

/-- The bytes that a number is made of. -/
def isNumberByte (b : UInt8) : Bool := isNumberChar (Char.ofNat b.toNat)

/-- Nothing follows that a number could go on with. -/
def Stops (r : Bytes) : Prop := ∀ b ∈ r.head?, isNumberByte b = false

/-- Neither white space follows nor anything that a number could go on with. -/
def Closes (r : Bytes) : Prop := ∀ b ∈ r.head?, isNumberByte b = false ∧ isBlank b = false

/-- A byte that is no white space stands in front. -/
def Visible (x : Bytes) : Prop := ∃ b t, x = b :: t ∧ isBlank b = false

/-- Of two pieces at the front of the same bytes, the first with at most `n` of them, one is the
other and denotes the same, when both end at a stop. -/
def Sole {α : Type} (Stop : Bytes → Prop) (n : ℕ) (Piece : Bytes → α → Prop) : Prop :=
  ∀ ⦃x y r s : Bytes⦄ ⦃a b : α⦄, x.length ≤ n → Piece x a → Piece y b → Stop r → Stop s →
    x ++ r = y ++ s → x = y ∧ a = b

theorem closes_of_mem {c : Char} (h : c ∈ [',', ':', ']', '\x7d']) (r : Bytes) :
    Closes (asciiByte c :: r) := by
  have hall : ∀ c ∈ [',', ':', ']', '\x7d'],
      isNumberByte (asciiByte c) = false ∧ isBlank (asciiByte c) = false :=
    List.all_iff_forall_prop.mp (by decide)
  rintro b ⟨⟩
  exact hall c h

theorem isAscii_of_isNumberChar {c : Char} (h : isNumberChar c = true) : c.toNat < 0x80 := by
  rw [isNumberChar, Bool.or_eq_true, decide_eq_true_eq] at h
  rcases h with h | h
  · exact Nat.lt_of_le_of_lt (Char.isDigit_iff_toNat.mp h).2 (by decide)
  · have hall : ∀ c ∈ ['+', '-', '.', 'e', 'E'], c.toNat < 0x80 :=
      List.all_iff_forall_prop.mp (by decide)
    exact hall c h

theorem isNumberByte_asciiByte {c : Char} (h : isNumberChar c = true) :
    isNumberByte (asciiByte c) = true := by
  have hascii := isAscii_of_isNumberChar h
  rw [isNumberByte, asciiByte, UInt8.toNat_ofNat', Nat.mod_eq_of_lt (by omega), Char.ofNat_toNat]
  exact h

/-- White space is cut off in one place only. -/
theorem blanks_unique {w w' r s : Bytes} (hw : Blanks w) (hw' : Blanks w')
    (hr : ∀ b ∈ r.head?, isBlank b = false) (hs : ∀ b ∈ s.head?, isBlank b = false)
    (h : w ++ r = w' ++ s) : w = w' ∧ r = s :=
  eq_of_append_eq_append isBlank (fun b hb => isBlank_iff.mpr (hw b hb))
    (fun b hb => isBlank_iff.mpr (hw' b hb)) hr hs h

theorem stops_blanks_append {w r : Bytes} (hw : Blanks w) (hr : Closes r) : Stops (w ++ r) := by
  intro b hb
  cases w with
  | nil => exact (hr b hb).1
  | cons b' w =>
    obtain rfl := Option.some.inj hb
    rcases hw _ List.mem_cons_self with rfl | rfl | rfl | rfl <;> decide

/-! ## Pieces are found in one way -/

theorem stringText_sole (n : ℕ) : Sole Stops n StringText := by
  intro x y r s a b _ hx hy _ _ h
  have hread : readString? (x ++ r) = some (a, r) := readString?_eq_some_iff.mpr ⟨x, hx, rfl⟩
  have hread' : readString? (x ++ r) = some (b, s) := readString?_eq_some_iff.mpr ⟨y, hy, h⟩
  rw [hread] at hread'
  cases hread'
  exact ⟨List.append_cancel_right h, rfl⟩

section Pieces

variable {α : Type} {n : ℕ} {Piece : Bytes → α → Prop}

theorem Sole.padded (h : Sole Stops n Piece)
    (hfirst : ∀ x a, Piece x a → Visible x) :
    Sole Closes n (Padded Piece) := by
  rintro _ _ r s _ _ hlen @⟨w, x, v, a, hw, hx, hv⟩ @⟨w', x', v', a', hw', hx', hv'⟩ hr hs heq
  have hhead : ∀ {x a}, Piece x a → ∀ t, ∀ b ∈ (x ++ t).head?, isBlank b = false := by
    intro x a hx t b hb
    obtain ⟨b', t', rfl, hb'⟩ := hfirst x a hx
    obtain rfl := Option.some.inj hb
    exact hb'
  simp only [List.append_assoc] at heq
  obtain ⟨rfl, hrest⟩ := blanks_unique hw hw' (hhead hx _) (hhead hx' _) heq
  obtain ⟨rfl, rfl⟩ := h (by simp only [List.length_append] at hlen; omega) hx hx'
    (stops_blanks_append hv hr) (stops_blanks_append hv' hs) hrest
  obtain ⟨rfl, -⟩ := blanks_unique hv hv' (fun b hb => (hr b hb).2) (fun b hb => (hs b hb).2)
    (List.append_cancel_left hrest)
  exact ⟨rfl, rfl⟩

theorem Sole.field (h : Sole Stops n Piece)
    (hfirst : ∀ x a, Piece x a → Visible x) :
    Sole Closes n (FieldText Piece) := by
  rintro _ _ r s _ _ hlen @⟨x, y, name, a, hx, hy⟩ @⟨x', y', name', a', hx', hy'⟩ hr hs heq
  have hquote : ∀ x a, StringText x a → Visible x := by
    intro x a hx
    obtain ⟨t, rfl⟩ := hx.exists_cons
    exact ⟨_, t, rfl, by decide⟩
  simp only [List.append_assoc, List.cons_append] at heq
  obtain ⟨rfl, rfl⟩ := (stringText_sole _).padded hquote le_rfl hx hx'
    (closes_of_mem (by decide) _) (closes_of_mem (by decide) _) heq
  obtain ⟨rfl, rfl⟩ := h.padded hfirst (by simp at hlen; omega) hy hy' hr hs
    (List.cons.inj (List.append_cancel_left heq)).2
  exact ⟨rfl, rfl⟩

/-- A bracket follows that closes. -/
def Ends (r : Bytes) : Prop := ∃ c ∈ [']', '\x7d'], ∃ t, r = asciiByte c :: t

theorem Ends.closes {r : Bytes} (h : Ends r) : Closes r := by
  obtain ⟨c, hc, t, rfl⟩ := h
  exact closes_of_mem (by simp at hc ⊢; tauto) t

theorem Ends.ne_comma {r t : Bytes} (h : Ends r) : r ≠ asciiByte ',' :: t := by
  obtain ⟨c, hc, t, rfl⟩ := h
  have hall : ∀ c ∈ [']', '\x7d'], asciiByte c ≠ asciiByte ',' :=
    List.all_iff_forall_prop.mp (by decide)
  exact fun heq => hall c hc (List.cons.inj heq).1

theorem Sole.listed (h : Sole Closes n Piece) : Sole Ends n (Listed Piece) := by
  intro x y r s as bs hlen hx hy hr hs heq
  induction hx generalizing y bs with
  | one hx =>
    cases hy with
    | one hy =>
      obtain ⟨rfl, rfl⟩ := h hlen hx hy hr.closes hs.closes heq
      exact ⟨rfl, rfl⟩
    | more hy _ =>
      rw [List.append_assoc] at heq
      obtain ⟨rfl, rfl⟩ := h hlen hx hy hr.closes (closes_of_mem (by decide) _) heq
      exact absurd (List.append_cancel_left heq) hr.ne_comma
  | more hx _ ih =>
    simp only [List.length_append, List.length_cons] at hlen
    rw [List.append_assoc] at heq
    cases hy with
    | one hy =>
      obtain ⟨rfl, rfl⟩ := h (by omega) hx hy (closes_of_mem (by decide) _) hs.closes heq
      exact absurd (List.append_cancel_left heq).symm hs.ne_comma
    | more hy hys =>
      rw [List.append_assoc] at heq
      obtain ⟨rfl, rfl⟩ := h (by omega) hx hy (closes_of_mem (by decide) _)
        (closes_of_mem (by decide) _) heq
      obtain ⟨rfl, rfl⟩ := ih (by omega) hys (List.cons.inj (List.append_cancel_left heq)).2
      exact ⟨rfl, rfl⟩

/-- Whether a text begins, behind white space, with a byte that is not `right`. -/
def BeginsOther (right : Char) (x : Bytes) : Prop :=
  ∃ w b t, Blanks w ∧ x = w ++ b :: t ∧ isBlank b = false ∧ b ≠ asciiByte right

theorem Sole.enclosed {left right : Char} (hright : right ∈ [']', '\x7d'])
    (h : Sole Closes n Piece) (hfirst : ∀ x a, Piece x a → BeginsOther right x) :
    Sole (fun _ => True) (n + 1) (Enclosed Piece left right) := by
  have hends : ∀ t, Ends (asciiByte right :: t) := fun t => ⟨right, hright, t, rfl⟩
  have hnonblank : ∀ t, ∀ b ∈ (asciiByte right :: t).head?, isBlank b = false := fun t b hb =>
    ((hends t).closes b hb).2
  have hlisted : ∀ {x as}, Listed Piece x as → BeginsOther right x := by
    rintro x as (hx | @⟨x, y, a, as, hx, -⟩)
    · exact hfirst _ _ hx
    · obtain ⟨w, b, t, hw, rfl, hb, hne⟩ := hfirst _ _ hx
      exact ⟨w, b, _, hw, by rw [List.append_assoc]; rfl, hb, hne⟩
  -- A bracket that closes at once is no beginning of a piece.
  have hmixed : ∀ {w x as r s}, Blanks w → Listed Piece x as →
      w ++ asciiByte right :: r ≠ x ++ s := by
    intro w x as r s hw hx heq
    obtain ⟨w', b, t, hw', rfl, hb, hne⟩ := hlisted hx
    rw [List.append_assoc] at heq
    obtain ⟨-, hcons⟩ := blanks_unique hw hw' (hnonblank r)
      (by rintro b' ⟨⟩; exact hb) heq
    exact hne (List.cons.inj hcons).1.symm
  rintro _ _ r s as bs hlen hx hy - - heq
  cases hx with
  | empty hw =>
    cases hy with
    | empty hw' =>
      simp only [List.cons_append, List.append_assoc, List.cons.injEq, true_and] at heq
      obtain ⟨rfl, -⟩ := blanks_unique hw hw' (hnonblank r) (hnonblank s) heq
      exact ⟨rfl, rfl⟩
    | filled hy =>
      simp only [List.cons_append, List.append_assoc, List.cons.injEq, true_and] at heq
      exact absurd heq (hmixed hw hy)
  | filled hx =>
    cases hy with
    | empty hw =>
      simp only [List.cons_append, List.append_assoc, List.cons.injEq, true_and] at heq
      exact absurd heq.symm (hmixed hw hx)
    | filled hy =>
      simp only [List.cons_append, List.append_assoc, List.cons.injEq, true_and] at heq
      simp only [List.length_cons, List.length_append] at hlen
      obtain ⟨rfl, rfl⟩ := h.listed (by omega) hx hy (hends r) (hends s) heq
      exact ⟨rfl, rfl⟩

end Pieces

/-! ## What values begin with -/

/-- The kinds of values that the first byte of a text tells apart. -/
inductive Kind where
  | null | yes | no | number | string | array | object

def Value.kind : Value → Kind
  | .null => .null
  | .boolean true => .yes
  | .boolean false => .no
  | .number _ => .number
  | .string _ => .string
  | .array _ => .array
  | .object _ => .object

/-- The kind of the values whose texts begin with a byte. -/
def kindOf? (b : UInt8) : Option Kind :=
  if isNumberByte b then some .number
  else [('n', Kind.null), ('t', .yes), ('f', .no), ('"', .string), ('[', .array),
    ('\x7b', .object)].lookup (Char.ofNat b.toNat)

theorem ValueText.exists_cons {x : Bytes} {v : Value} (h : ValueText x v) :
    ∃ b t, x = b :: t ∧ kindOf? b = some v.kind := by
  cases h with
  | null | yes | no => exact ⟨_, _, rfl, rfl⟩
  | @number cs q h =>
    cases cs with
    | nil => exact absurd rfl h.ne_nil
    | cons c cs =>
      have hbyte := isNumberByte_asciiByte (h.isNumberChar_of_mem c List.mem_cons_self)
      exact ⟨_, _, rfl, if_pos hbyte⟩
  | string h =>
    obtain ⟨t, rfl⟩ := h.exists_cons
    exact ⟨_, t, rfl, rfl⟩
  | array h => cases h <;> exact ⟨_, _, rfl, rfl⟩
  | object h => cases h <;> exact ⟨_, _, rfl, rfl⟩

theorem visible_of_valueText {x : Bytes} {v : Value} (h : ValueText x v) : Visible x := by
  obtain ⟨b, t, rfl, hkind⟩ := h.exists_cons
  refine ⟨b, t, rfl, Bool.eq_false_iff.mpr fun hb => ?_⟩
  rcases isBlank_iff.mp hb with rfl | rfl | rfl | rfl <;> cases hkind

theorem beginsOther_padded {x : Bytes} {v : Value} (h : Padded ValueText x v) :
    BeginsOther ']' x := by
  obtain @⟨w, x, w', v, hw, hx, -⟩ := h
  obtain ⟨b, t, rfl, hkind⟩ := hx.exists_cons
  obtain ⟨_, _, heq, hb⟩ := visible_of_valueText hx
  obtain ⟨rfl, rfl⟩ := List.cons.inj heq
  refine ⟨w, b, _, hw, rfl, hb, ?_⟩
  rintro rfl
  cases hkind

theorem beginsOther_field {x : Bytes} {m : String × Value} (h : FieldText ValueText x m) :
    BeginsOther '\x7d' x := by
  obtain @⟨_, y, name, v, hx, -⟩ := h
  obtain @⟨w, x, w', name, hw, hx, -⟩ := hx
  obtain ⟨t, rfl⟩ := hx.exists_cons
  exact ⟨w, _, _, hw, by rw [List.append_assoc]; rfl, by decide, by decide⟩

/-! ## Values are found in one way -/

theorem number_unique {cs ds : List Char} {p q : ℚ} {r s : Bytes} (hp : NumberText cs p)
    (hq : NumberText ds q) (hr : Stops r) (hs : Stops s)
    (h : cs.map asciiByte ++ r = ds.map asciiByte ++ s) : cs = ds ∧ p = q := by
  have hbytes : ∀ {cs q}, NumberText cs q → ∀ b ∈ cs.map asciiByte, isNumberByte b = true := by
    intro cs q hq b hb
    obtain ⟨c, hc, rfl⟩ := List.mem_map.mp hb
    exact isNumberByte_asciiByte (hq.isNumberChar_of_mem c hc)
  have hascii : ∀ {cs q}, NumberText cs q → Utf8.encode cs = cs.map asciiByte := fun hq =>
    Utf8.encode_ascii fun c hc => isAscii_of_isNumberChar (hq.isNumberChar_of_mem c hc)
  obtain ⟨hmap, -⟩ := eq_of_append_eq_append isNumberByte (hbytes hp) (hbytes hq) hr hs h
  rw [← hascii hp, ← hascii hq] at hmap
  obtain rfl := Utf8.encode_injective hmap
  exact ⟨rfl, hp.unique hq⟩

theorem valueText_sole (n : ℕ) : Sole Stops n ValueText := by
  induction n with
  | zero =>
    intro x y r s v w hlen hx
    obtain ⟨b, t, rfl, -⟩ := hx.exists_cons
    cases hlen
  | succ n ih =>
    intro x y r s v w hlen hx hy hr hs heq
    have hkind : v.kind = w.kind := by
      obtain ⟨b, t, rfl, hb⟩ := hx.exists_cons
      obtain ⟨b', t', rfl, hb'⟩ := hy.exists_cons
      rw [(List.cons.inj heq).1, hb', Option.some.injEq] at hb
      exact hb.symm
    cases hx with
    | null => cases hy with
      | null => exact ⟨rfl, rfl⟩
      | _ => cases hkind
    | yes => cases hy with
      | yes => exact ⟨rfl, rfl⟩
      | _ => cases hkind
    | no => cases hy with
      | no => exact ⟨rfl, rfl⟩
      | _ => cases hkind
    | number hp => cases hy with
      | number hq =>
        obtain ⟨rfl, rfl⟩ := number_unique hp hq hr hs heq
        exact ⟨rfl, rfl⟩
      | _ => cases hkind
    | string hx => cases hy with
      | string hy =>
        obtain ⟨rfl, rfl⟩ := stringText_sole _ hlen hx hy hr hs heq
        exact ⟨rfl, rfl⟩
      | _ => cases hkind
    | array hx => cases hy with
      | array hy =>
        have hpieces := ih.padded fun _ _ => visible_of_valueText
        obtain ⟨rfl, rfl⟩ := hpieces.enclosed (by decide) (fun _ _ => beginsOther_padded) hlen hx hy
          trivial trivial heq
        exact ⟨rfl, rfl⟩
      | _ => cases hkind
    | object hx => cases hy with
      | object hy =>
        have hpieces := ih.field fun _ _ => visible_of_valueText
        obtain ⟨rfl, rfl⟩ := hpieces.enclosed (by decide) (fun _ _ => beginsOther_field) hlen hx hy
          trivial trivial heq
        exact ⟨rfl, rfl⟩
      | _ => cases hkind

/-- A document has one value. -/
theorem documentText_unique {x : Bytes} {v w : Value} (hv : DocumentText x v)
    (hw : DocumentText x w) : v = w := by
  have hend : Closes [] := by rintro b ⟨⟩
  exact ((valueText_sole _).padded (fun _ _ => visible_of_valueText) le_rfl hv hw hend hend rfl).2

end FrontDoor.Json
