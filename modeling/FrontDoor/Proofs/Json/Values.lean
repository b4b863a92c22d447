import FrontDoor.Proofs.Json.Acceptance
import FrontDoor.Proofs.Json.Numbers

/-!
# The grammar of values

RFC 8259 for all values, as a relation between a text and the value that it denotes. White space
stands around values and names. What the writer makes of texts of values is a text of their object
(`valueText_objectText`).
-/

namespace FrontDoor.Json

/-- The values, with the members of an object in the order in which they stand. -/
inductive Value where
  | null
  | boolean (b : Bool)
  | number (q : ℚ)
  | string (s : String)
  | array (items : List Value)
  | object (members : List (String × Value))

section Pieces

variable {α : Type}

/-- A piece with white space on both sides. -/
inductive Padded (Piece : Bytes → α → Prop) : Bytes → α → Prop where
  | mk {w x w' : Bytes} {a : α} : Blanks w → Piece x a → Blanks w' → Padded Piece (w ++ (x ++ w')) a

/-- A name, a colon and a piece. -/
inductive FieldText (Piece : Bytes → α → Prop) : Bytes → String × α → Prop where
  | mk {x y : Bytes} {name : String} {a : α} : Padded StringText x name → Padded Piece y a →
      FieldText Piece (x ++ asciiByte ':' :: y) (name, a)

/-- At least one piece, with commas between them. -/
inductive Listed (Piece : Bytes → α → Prop) : Bytes → List α → Prop where
  | one {x : Bytes} {a : α} : Piece x a → Listed Piece x [a]
  | more {x y : Bytes} {a : α} {as : List α} : Piece x a → Listed Piece y as →
      Listed Piece (x ++ asciiByte ',' :: y) (a :: as)

/-- Pieces between two brackets. -/
inductive Enclosed (Piece : Bytes → α → Prop) (left right : Char) : Bytes → List α → Prop where
  | empty {w : Bytes} : Blanks w →
      Enclosed Piece left right (asciiByte left :: (w ++ [asciiByte right])) []
  | filled {x : Bytes} {as : List α} : Listed Piece x as →
      Enclosed Piece left right (asciiByte left :: (x ++ [asciiByte right])) as

end Pieces

inductive ValueText : Bytes → Value → Prop where
  | null : ValueText (asciiBytes "null") .null
  | yes : ValueText (asciiBytes "true") (.boolean true)
  | no : ValueText (asciiBytes "false") (.boolean false)
  | number {cs : List Char} {q : ℚ} : NumberText cs q → ValueText (cs.map asciiByte) (.number q)
  | string {x : Bytes} {s : String} : StringText x s → ValueText x (.string s)
  | array {x : Bytes} {items : List Value} : Enclosed (Padded ValueText) '[' ']' x items →
      ValueText x (.array items)
  | object {x : Bytes} {members : List (String × Value)} :
      Enclosed (FieldText ValueText) '\x7b' '\x7d' x members → ValueText x (.object members)

/-- A document is a value with nothing but white space around it. -/
abbrev DocumentText : Bytes → Value → Prop := Padded ValueText

/-! ## Documents as they are written -/

theorem blanks_nil : Blanks [] := fun _ h => absurd h List.not_mem_nil

theorem padded_of_piece {α : Type} {Piece : Bytes → α → Prop} {x : Bytes} {a : α}
    (h : Piece x a) : Padded Piece x a := by
  have hpadded : Padded Piece ([] ++ (x ++ [])) a := .mk blanks_nil h blanks_nil
  rwa [List.nil_append, List.append_nil] at hpadded

variable {dialect : Char → List Char}

theorem stringText_quoted (h : Legible dialect) (s : String) :
    StringText (Utf8.encode (quoted dialect s)) s := by
  obtain ⟨x, hx, heq⟩ := readString?_eq_some_iff.mp (readString?_quoted h s [])
  rw [List.append_left_inj] at heq
  rw [heq]
  exact hx

theorem valueText_decimal (n : ℕ) :
    ValueText (Utf8.encode (Digits.decimal n).toList) (.number n) := by
  rw [Utf8.encode_ascii (Digits.isAscii_decimal n)]
  exact .number (numberText_decimal n)

/-- A name with a text, and the value that the text denotes. -/
abbrev WrittenField := String × List Char × Value

theorem fieldText_memberText (h : Legible dialect) {f : WrittenField}
    (hf : ValueText (Utf8.encode f.2.1) f.2.2) :
    FieldText ValueText (Utf8.encode (memberText (quoted dialect f.1, f.2.1))) (f.1, f.2.2) := by
  have hcolon : String.utf8EncodeChar ':' = [asciiByte ':'] := Utf8.encodeChar_ascii (by decide)
  rw [memberText, Utf8.encode_append, Utf8.encode_cons, hcolon]
  exact .mk (padded_of_piece (stringText_quoted h f.1)) (padded_of_piece hf)

theorem listed_memberText (h : Legible dialect) {f : WrittenField} {fields : List WrittenField}
    (hf : ∀ f' ∈ f :: fields, ValueText (Utf8.encode f'.2.1) f'.2.2) :
    Listed (FieldText ValueText)
      (Utf8.encode (((f :: fields).map fun f' =>
        memberText (quoted dialect f'.1, f'.2.1)).intersperse [',']).flatten)
      ((f :: fields).map fun f' => (f'.1, f'.2.2)) := by
  have hcomma : Utf8.encode [','] = [asciiByte ','] := by decide
  induction fields generalizing f with
  | nil =>
    rw [List.map_singleton, List.intersperse_singleton, List.flatten_singleton]
    exact .one (fieldText_memberText h (hf f List.mem_cons_self))
  | cons f' fields ih =>
    rw [List.map_cons, List.map_cons, List.intersperse_cons_cons, List.flatten_cons,
      List.flatten_cons, Utf8.encode_append, Utf8.encode_append, hcomma]
    exact .more (fieldText_memberText h (hf f List.mem_cons_self))
      (ih fun g hg => hf g (List.mem_cons_of_mem f hg))

/-- An object whose values are written as texts of theirs is a text of the object. -/
theorem valueText_objectText (h : Legible dialect) (fields : List WrittenField)
    (hf : ∀ f ∈ fields, ValueText (Utf8.encode f.2.1) f.2.2) :
    ValueText (Utf8.encode (objectText (fields.map fun f => (quoted dialect f.1, f.2.1))))
      (.object (fields.map fun f => (f.1, f.2.2))) := by
  have hopen : String.utf8EncodeChar '\x7b' = [asciiByte '\x7b'] :=
    Utf8.encodeChar_ascii (by decide)
  have hclose : Utf8.encode ['\x7d'] = [asciiByte '\x7d'] := by decide
  rw [objectText, Utf8.encode_cons, Utf8.encode_append, hopen, hclose, List.map_map]
  refine .object ?_
  cases fields with
  | nil => exact .empty blanks_nil
  | cons f fields => exact .filled (listed_memberText h hf)

/-- An object of strings is a text of the object. -/
theorem valueText_stringObjectText (h : Legible dialect) (entries : List (String × String)) :
    ValueText (Utf8.encode (stringObjectText dialect entries))
      (.object (entries.map fun e => (e.1, .string e.2))) := by
  have htext := valueText_objectText h (entries.map fun e => (e.1, quoted dialect e.2, .string e.2))
    (by
      intro f hf
      obtain ⟨e, -, rfl⟩ := List.mem_map.mp hf
      exact .string (stringText_quoted h e.2))
  rw [List.map_map, List.map_map] at htext
  exact htext

end FrontDoor.Json
