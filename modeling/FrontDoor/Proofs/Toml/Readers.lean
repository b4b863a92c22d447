import FrontDoor.Proofs.Text.Front
import FrontDoor.Toml.Value
import Mathlib.Data.List.Infix

/-!
# What readers leave

Whatever a reader of TOML reads stands at the front of the text: what it leaves is an end of what it
was given. Here this is shown of the readers that call none but earlier ones.
-/

namespace FrontDoor.Toml

variable {cs rest : List Char}

/-- What stands behind the first character of an end. -/
theorem suffix_of_eq_cons {c : Char} {tail : List Char} (h : tail = c :: rest)
    (htail : tail <:+ cs) : rest <:+ cs := by
  subst h
  exact (List.suffix_cons c rest).trans htail

/-! ## Blanks, comments and ends of lines -/

theorem skipBlanks_suffix (cs : List Char) : skipBlanks cs <:+ cs := List.dropWhile_suffix _

theorem newline?_suffix (h : newline? cs = some rest) : rest <:+ cs := by
  unfold newline? at h
  split at h
  · cases h
    exact List.suffix_cons _ _
  · cases h
    exact (List.suffix_cons _ _).trans (List.suffix_cons _ _)
  · cases h

theorem skipBlankLines_suffix (cs : List Char) : skipBlankLines cs <:+ cs := by
  fun_induction skipBlankLines cs with
  | case1 cs ih => exact ih.trans (List.suffix_cons _ _)
  | case2 cs ih => exact ih.trans ((List.suffix_cons _ _).trans (List.suffix_cons _ _))
  | case3 c cs _ _ _ ih => exact ih.trans (List.suffix_cons _ _)
  | case4 => exact List.suffix_rfl
  | case5 => exact List.suffix_rfl

theorem skipFiller_suffix (inComment : Bool) (cs : List Char) : skipFiller inComment cs <:+ cs := by
  fun_induction skipFiller inComment cs with
  | case1 _ cs ih => exact ih.trans (List.suffix_cons _ _)
  | case2 _ cs ih => exact ih.trans ((List.suffix_cons _ _).trans (List.suffix_cons _ _))
  | case3 _ c cs _ _ _ ih => exact ih.trans (List.suffix_cons _ _)
  | case4 _ cs _ _ _ ih => exact ih.trans (List.suffix_cons _ _)
  | case5 _ c cs _ _ _ _ _ ih => exact ih.trans (List.suffix_cons _ _)
  | case6 => exact List.suffix_rfl
  | case7 => exact List.suffix_rfl

/-- The rest of a line behind its blanks and its comment. -/
theorem endLine?_cases (h : endLine? cs = some rest) :
    rest = [] ∨ ∃ tail, tail <:+ cs ∧ newline? tail = some rest := by
  have hblanks := skipBlanks_suffix cs
  have hrest : ∀ {tail : List Char}, tail <:+ cs →
      (if tail.isEmpty then some [] else newline? tail) = some rest →
        rest = [] ∨ ∃ tail, tail <:+ cs ∧ newline? tail = some rest := by
    intro tail htail h
    split at h
    · exact .inl (Option.some.inj h).symm
    · exact .inr ⟨tail, htail, h⟩
  unfold endLine? at h
  dsimp only at h
  split at h
  · next comment heq =>
    exact hrest ((List.dropWhile_suffix _).trans (suffix_of_eq_cons heq hblanks)) h
  · exact hrest hblanks h

theorem endLine?_suffix (h : endLine? cs = some rest) : rest <:+ cs := by
  rcases endLine?_cases h with rfl | ⟨tail, htail, hnewline⟩
  · exact List.nil_suffix
  · exact (newline?_suffix hnewline).trans htail

/-- Behind the end of a line there is less than before it, unless the text ends. -/
theorem length_of_endLine? (h : endLine? cs = some rest) : rest = [] ∨ rest.length < cs.length := by
  rcases endLine?_cases h with rfl | ⟨tail, htail, hnewline⟩
  · exact .inl rfl
  · exact .inr (Nat.lt_of_lt_of_le (length_of_newline? hnewline) htail.length_le)

/-! ## Strings -/

theorem readCode?_suffix {n : Nat} {c : Char} (h : readCode? n cs = some (c, rest)) :
    rest <:+ cs := by
  unfold readCode? at h
  split at h
  · cases h
  · split at h
    · split at h
      · cases h
        exact List.drop_suffix _ _
      · cases h
    · cases h

theorem readEscape?_suffix {c : Char} (h : readEscape? cs = some (c, rest)) : rest <:+ cs := by
  unfold readEscape? at h
  split at h
  case h_8 => exact (readCode?_suffix h).trans (List.suffix_cons _ _)
  case h_9 => exact (readCode?_suffix h).trans (List.suffix_cons _ _)
  case h_10 => cases h
  all_goals
    cases h
    exact List.suffix_cons _ _

theorem continuation?_suffix (h : continuation? cs = some rest) : rest <:+ cs := by
  obtain ⟨r, hr, rfl⟩ := Option.map_eq_some_iff.1 h
  exact (skipBlankLines_suffix r).trans ((newline?_suffix hr).trans (skipBlanks_suffix cs))

theorem splitQuotes_suffix (quote : Char) (cs : List Char) : (splitQuotes quote cs).2 <:+ cs :=
  List.dropWhile_suffix _

theorem readBasicOnto_suffix {done : List Char} {s : String}
    (h : readBasicOnto done cs = some (s, rest)) : rest <:+ cs := by
  fun_induction readBasicOnto done cs with
  | case1 => cases h
  | case2 done cs =>
    cases h
    exact List.suffix_cons _ _
  | case3 done cs e after hescape _ ih =>
    exact (ih h).trans ((readEscape?_suffix hescape).trans (List.suffix_cons _ _))
  | case4 => cases h
  | case5 done c cs _ _ _ ih => exact (ih h).trans (List.suffix_cons _ _)
  | case6 => cases h

theorem readLongBasicOnto_suffix {done : List Char} {s : String}
    (h : readLongBasicOnto done cs = some (s, rest)) : rest <:+ cs := by
  have hquotes : ∀ cs : List Char, (splitQuotes '"' cs).2 <:+ '"' :: cs := fun cs =>
    (splitQuotes_suffix '"' cs).trans (List.suffix_cons _ _)
  fun_induction readLongBasicOnto done cs with
  | case1 => cases h
  | case2 done cs run n _ =>
    cases h
    exact hquotes cs
  | case3 done cs run _ _ ih => exact (ih h).trans (hquotes cs)
  | case4 => cases h
  | case5 done cs after hcontinuation _ ih =>
    exact (ih h).trans ((continuation?_suffix hcontinuation).trans (List.suffix_cons _ _))
  | case6 done cs _ e after hescape _ ih =>
    exact (ih h).trans ((readEscape?_suffix hescape).trans (List.suffix_cons _ _))
  | case7 => cases h
  | case8 done c cs _ _ _ ih => exact (ih h).trans (List.suffix_cons _ _)
  | case9 done c cs _ _ _ after hnewline ih => exact (ih h).trans (newline?_suffix hnewline)
  | case10 => cases h

theorem readLiteralOnto_suffix {done : List Char} {s : String}
    (h : readLiteralOnto done cs = some (s, rest)) : rest <:+ cs := by
  fun_induction readLiteralOnto done cs with
  | case1 => cases h
  | case2 done cs =>
    cases h
    exact List.suffix_cons _ _
  | case3 done c cs _ _ ih => exact (ih h).trans (List.suffix_cons _ _)
  | case4 => cases h

theorem readLongLiteralOnto_suffix {done : List Char} {s : String}
    (h : readLongLiteralOnto done cs = some (s, rest)) : rest <:+ cs := by
  have hquotes : ∀ cs : List Char, (splitQuotes '\'' cs).2 <:+ '\'' :: cs := fun cs =>
    (splitQuotes_suffix '\'' cs).trans (List.suffix_cons _ _)
  fun_induction readLongLiteralOnto done cs with
  | case1 => cases h
  | case2 done cs run n _ =>
    cases h
    exact hquotes cs
  | case3 done cs run _ _ ih => exact (ih h).trans (hquotes cs)
  | case4 => cases h
  | case5 done c cs _ _ ih => exact (ih h).trans (List.suffix_cons _ _)
  | case6 done c cs _ _ after hnewline ih => exact (ih h).trans (newline?_suffix hnewline)
  | case7 => cases h

theorem skipNewline_suffix (cs : List Char) : skipNewline cs <:+ cs := by
  unfold skipNewline
  cases h : newline? cs with
  | none => exact List.suffix_rfl
  | some rest => exact newline?_suffix h

theorem readString?_suffix {s : String} (h : readString? cs = some (s, rest)) : rest <:+ cs := by
  have hthree : ∀ {a b c : Char} {cs : List Char}, skipNewline cs <:+ a :: b :: c :: cs :=
    (skipNewline_suffix _).trans ⟨[_, _, _], rfl⟩
  unfold readString? at h
  split at h
  · exact (readLongBasicOnto_suffix h).trans hthree
  · exact (readBasicOnto_suffix h).trans (List.suffix_cons _ _)
  · exact (readLongLiteralOnto_suffix h).trans hthree
  · exact (readLiteralOnto_suffix h).trans (List.suffix_cons _ _)
  · cases h

/-! ## Numbers -/

theorem readMoreDigits_suffix (isDigit : Char → Bool) (cs : List Char) :
    (readMoreDigits isDigit cs).2 <:+ cs := by
  induction cs with
  | nil => exact List.suffix_rfl
  | cons c cs ih =>
    have hcons := ih.trans (List.suffix_cons c cs)
    unfold readMoreDigits
    split
    · exact hcons
    · split
      · exact hcons
      · exact List.suffix_rfl

theorem readDigits?_suffix {isDigit : Char → Bool} {ds : List Char}
    (h : readDigits? isDigit cs = some (ds, rest)) : rest <:+ cs := by
  unfold readDigits? at h
  split at h
  · cases h
  · next c cs =>
    split at h
    · cases h
      exact (readMoreDigits_suffix isDigit cs).trans (List.suffix_cons _ _)
    · cases h

theorem readWhole?_suffix {ds : List Char} (h : readWhole? cs = some (ds, rest)) : rest <:+ cs := by
  unfold readWhole? at h
  split at h
  · cases h
    exact List.suffix_cons _ _
  · exact readDigits?_suffix h

theorem splitSign_suffix (cs : List Char) : (Binary64.splitSign cs).2 <:+ cs := by
  unfold Binary64.splitSign
  split
  · exact List.suffix_cons _ _
  · exact List.suffix_cons _ _
  · exact List.suffix_rfl

theorem fitted?_eq_some {i j : Int} {cs : List Char} (h : fitted? i cs = some (j, rest)) :
    rest = cs := by
  unfold fitted? at h
  split at h
  · exact (Prod.mk.inj (Option.some.inj h)).2.symm
  · cases h

theorem readDecimal?_suffix {i : Int} (h : readDecimal? cs = some (i, rest)) : rest <:+ cs := by
  unfold readDecimal? at h
  dsimp only at h
  split at h
  · next hwhole =>
    obtain rfl := fitted?_eq_some h
    exact (readWhole?_suffix hwhole).trans (splitSign_suffix cs)
  · cases h

theorem readInteger?_suffix {i : Int} (h : readInteger? cs = some (i, rest)) : rest <:+ cs := by
  unfold readInteger? at h
  split at h
  · split at h
    · obtain ⟨⟨ds, after⟩, hdigits, h⟩ := Option.bind_eq_some_iff.mp h
      obtain ⟨n, -, h⟩ := Option.bind_eq_some_iff.mp h
      obtain rfl := fitted?_eq_some h
      exact (readDigits?_suffix hdigits).trans ⟨[_, _], rfl⟩
    · exact readDecimal?_suffix h
  · exact readDecimal?_suffix h

theorem readExponent?_suffix {negative : Bool} {ds : List Char}
    (h : readExponent? cs = some (negative, ds, rest)) : rest <:+ cs := by
  unfold readExponent? at h
  split at h
  · cases h
  · next e cs =>
    split at h
    · obtain ⟨⟨ds, after⟩, hdigits, h⟩ := Option.map_eq_some_iff.mp h
      cases h
      exact (readDigits?_suffix hdigits).trans ((splitSign_suffix cs).trans (List.suffix_cons _ _))
    · cases h

theorem readDecimalFloat?_suffix {x : Binary64} (h : readDecimalFloat? cs = some (x, rest)) :
    rest <:+ cs := by
  unfold readDecimalFloat? at h
  obtain ⟨⟨whole, behindWhole⟩, hwhole, h⟩ := Option.bind_eq_some_iff.mp h
  have hcs := (readWhole?_suffix hwhole).trans (splitSign_suffix cs)
  refine List.IsSuffix.trans ?_ hcs
  -- What is computed from the parts leaves what stands behind the exponent.
  have hvalue : ∀ {y : Binary64} {after : List Char},
      (if y = .infinity false then none else some (y, after)) = some (x, rest) → rest = after := by
    intro y after h
    split at h
    · cases h
    · exact (Prod.mk.inj (Option.some.inj h)).2.symm
  dsimp only at h
  split at h
  · obtain ⟨⟨fraction, after⟩, hfraction, h⟩ := Option.bind_eq_some_iff.mp h
    have hafter := (readDigits?_suffix hfraction).trans (List.suffix_cons '.' _)
    dsimp only at h
    split at h
    · next hexponent =>
      obtain rfl := hvalue h
      exact (readExponent?_suffix hexponent).trans hafter
    · split at h
      · cases h
      · obtain rfl := hvalue h
        exact hafter
  · dsimp only [Option.bind_eq_bind, Option.bind_some] at h
    split at h
    · next hexponent =>
      obtain rfl := hvalue h
      exact readExponent?_suffix hexponent
    · cases h

theorem readNamedFloat?_suffix {x : Binary64} (h : readNamedFloat? cs = some (x, rest)) :
    rest <:+ cs := by
  have hsign := splitSign_suffix cs
  unfold readNamedFloat? at h
  dsimp only at h
  split at h
  · next heq =>
    cases h
    rw [heq] at hsign
    exact .trans ⟨[_, _, _], rfl⟩ hsign
  · next heq =>
    cases h
    rw [heq] at hsign
    exact .trans ⟨[_, _, _], rfl⟩ hsign
  · cases h

theorem readFloat?_suffix {x : Binary64} (h : readFloat? cs = some (x, rest)) : rest <:+ cs := by
  rcases Option.or_eq_some_iff.mp h with h | ⟨-, h⟩
  · exact readDecimalFloat?_suffix h
  · exact readNamedFloat?_suffix h

/-! ## Dates and times -/

theorem readField?_suffix {n low high k : Nat} (h : readField? n low high cs = some (k, rest)) :
    rest <:+ cs := by
  unfold readField? at h
  dsimp only at h
  split at h
  · split at h
    · cases h
      exact List.drop_suffix _ _
    · cases h
  · cases h

theorem expectChar?_suffix {c : Char} (h : expectChar? c cs = some rest) : rest <:+ cs := by
  rw [expectChar?_eq_some_iff.mp h]
  exact List.suffix_cons _ _

theorem skipDate?_suffix (h : skipDate? cs = some rest) : rest <:+ cs := by
  unfold skipDate? at h
  obtain ⟨⟨year, cs₁⟩, hyear, h⟩ := Option.bind_eq_some_iff.mp h
  obtain ⟨cs₂, hdash, h⟩ := Option.bind_eq_some_iff.mp h
  obtain ⟨⟨month, cs₃⟩, hmonth, h⟩ := Option.bind_eq_some_iff.mp h
  obtain ⟨cs₄, hdash', h⟩ := Option.bind_eq_some_iff.mp h
  obtain ⟨⟨day, cs₅⟩, hday, h⟩ := Option.bind_eq_some_iff.mp h
  obtain rfl := Option.some.inj h
  exact (readField?_suffix hday).trans ((expectChar?_suffix hdash').trans
    ((readField?_suffix hmonth).trans ((expectChar?_suffix hdash).trans (readField?_suffix hyear))))

theorem skipFraction?_suffix (h : skipFraction? cs = some rest) : rest <:+ cs := by
  unfold skipFraction? at h
  split at h
  · split at h
    · cases h
      exact (List.dropWhile_suffix _).trans (List.suffix_cons _ _)
    · cases h
  · cases h
    exact List.suffix_rfl

theorem skipTime?_suffix (h : skipTime? cs = some rest) : rest <:+ cs := by
  unfold skipTime? at h
  obtain ⟨⟨hour, cs₁⟩, hhour, h⟩ := Option.bind_eq_some_iff.mp h
  obtain ⟨cs₂, hcolon, h⟩ := Option.bind_eq_some_iff.mp h
  obtain ⟨⟨minute, cs₃⟩, hminute, h⟩ := Option.bind_eq_some_iff.mp h
  obtain ⟨cs₄, hcolon', h⟩ := Option.bind_eq_some_iff.mp h
  obtain ⟨⟨second, cs₅⟩, hsecond, h⟩ := Option.bind_eq_some_iff.mp h
  exact (skipFraction?_suffix h).trans ((readField?_suffix hsecond).trans
    ((expectChar?_suffix hcolon').trans ((readField?_suffix hminute).trans
      ((expectChar?_suffix hcolon).trans (readField?_suffix hhour)))))

theorem skipOffset?_suffix (h : skipOffset? cs = some rest) : rest <:+ cs := by
  unfold skipOffset? at h
  split at h
  · cases h
  · split at h
    · cases h
      exact List.suffix_cons _ _
    · split at h
      · obtain ⟨⟨hour, cs₁⟩, hhour, h⟩ := Option.bind_eq_some_iff.mp h
        obtain ⟨cs₂, hcolon, h⟩ := Option.bind_eq_some_iff.mp h
        obtain ⟨⟨minute, cs₃⟩, hminute, h⟩ := Option.bind_eq_some_iff.mp h
        obtain rfl := Option.some.inj h
        exact (readField?_suffix hminute).trans ((expectChar?_suffix hcolon).trans
          ((readField?_suffix hhour).trans (List.suffix_cons _ _)))
      · cases h

/-- What may be left out leaves an end of the text in either case. -/
theorem getD_suffix {skip : List Char → Option (List Char)}
    (hskip : ∀ {rest}, skip cs = some rest → rest <:+ cs) : (skip cs).getD cs <:+ cs := by
  cases h : skip cs with
  | none => exact List.suffix_rfl
  | some rest => exact hskip h

theorem skipJoinedTime?_suffix (h : skipJoinedTime? cs = some rest) : rest <:+ cs := by
  unfold skipJoinedTime? at h
  split at h
  · cases h
  · split at h
    · obtain ⟨after, htime, rfl⟩ := Option.map_eq_some_iff.mp h
      exact (getD_suffix skipOffset?_suffix).trans
        ((skipTime?_suffix htime).trans (List.suffix_cons _ _))
    · cases h

theorem skipDateTime?_suffix (h : skipDateTime? cs = some rest) : rest <:+ cs := by
  unfold skipDateTime? at h
  split at h
  · next hdate =>
    cases h
    exact (getD_suffix skipJoinedTime?_suffix).trans (skipDate?_suffix hdate)
  · exact skipTime?_suffix h

/-! ## Keys -/

theorem readKeyPart?_suffix {name : String} (h : readKeyPart? cs = some (name, rest)) :
    rest <:+ cs := by
  unfold readKeyPart? at h
  split at h
  · exact (readBasicOnto_suffix h).trans (List.suffix_cons _ _)
  · exact (readLiteralOnto_suffix h).trans (List.suffix_cons _ _)
  · dsimp only at h
    split at h
    · cases h
    · cases h
      exact List.dropWhile_suffix _

/-! ## Values -/

theorem readScalar?_suffix {v : Value} (h : readScalar? cs = some (v, rest)) : rest <:+ cs := by
  unfold readScalar? at h
  split at h
  · cases h
    exact ⟨[_, _, _, _], rfl⟩
  · cases h
    exact ⟨[_, _, _, _, _], rfl⟩
  · split at h
    · next hstring =>
      cases h
      exact readString?_suffix hstring
    · split at h
      · next hdate =>
        cases h
        exact skipDateTime?_suffix hdate
      · split at h
        · next hfloat =>
          cases h
          exact readFloat?_suffix hfloat
        · obtain ⟨⟨i, after⟩, hinteger, h⟩ := Option.map_eq_some_iff.mp h
          cases h
          exact readInteger?_suffix hinteger

end FrontDoor.Toml
