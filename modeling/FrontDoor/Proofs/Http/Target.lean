import FrontDoor.Http.Target
import FrontDoor.Proofs.Text.Utf8
import Mathlib.Data.Bool.AllAny
import Mathlib.Data.List.TakeWhile

/-!
# Targets that are URLs

Of a URL whose authority can be scanned the path is read, byte for byte as it was sent
(`path_http`).
-/

namespace FrontDoor.Target

/-- An authority: nothing in it ends one, and its scan is complete. -/
structure IsAuthority (bs : Bytes) : Prop where
  unended : ∀ b ∈ bs, endsAuthority b = false
  scan : ∃ s, bs.foldlM AuthorityScan.step .start = .ok s ∧ s.complete = true

/-- A path from the root that needs no query: its bytes may stand unescaped, and are UTF-8. -/
structure IsPlainPath (bs : Bytes) : Prop where
  rooted : ∃ rest, bs = asciiByte '/' :: rest
  allowed : bs.all isPathByte = true
  noQuery : asciiByte '?' ∉ bs
  noFragment : asciiByte '#' ∉ bs
  utf8 : Utf8.valid bs = true

variable {authority p : Bytes}

theorem takeWhile_eq_self_of_not_mem {b : UInt8} (h : b ∉ p) : p.takeWhile (· ≠ b) = p :=
  List.takeWhile_eq_self_iff.mpr fun _ hb' => decide_eq_true fun heq => h (heq ▸ hb')

theorem readPath_plain (h : IsPlainPath p) : readPath p = .ok p := by
  unfold readPath
  dsimp only
  rw [takeWhile_eq_self_of_not_mem h.noFragment, takeWhile_eq_self_of_not_mem h.noQuery,
    List.drop_length, List.drop_nil, h.allowed, h.utf8]
  rfl

theorem splitAuthority_append (ha : IsAuthority authority) (hp : IsPlainPath p) :
    splitAuthority (authority ++ p) = .ok (authority, p) := by
  obtain ⟨s, hscan, hcomplete⟩ := ha.scan
  obtain ⟨rest, rfl⟩ := hp.rooted
  have hends : (authority ++ asciiByte '/' :: rest).takeWhile (fun b => !endsAuthority b) =
      authority := by
    rw [List.takeWhile_append_of_pos fun b hb => by rw [ha.unended b hb]; rfl,
      List.takeWhile_cons_of_neg (by decide), List.append_nil]
  unfold splitAuthority
  dsimp only
  rw [hends, hscan]
  show (if s.complete then _ else _) = _
  rw [if_pos hcomplete, List.drop_left]

/-- A target that begins like this is a whole URI. -/
def httpMark : Bytes := Utf8.encode "http://".toList

theorem afterScheme?_http (rest : Bytes) : afterScheme? (httpMark ++ rest) = .ok (some rest) := by
  have hscheme : ∀ b ∈ ([0x68, 0x74, 0x74, 0x70] : Bytes), isSchemeByte b = true :=
    List.all_iff_forall_prop.mp (by decide)
  have htake : (httpMark ++ rest).takeWhile isSchemeByte = [0x68, 0x74, 0x74, 0x70] := by
    have hmark : httpMark ++ rest = [0x68, 0x74, 0x74, 0x70] ++ 0x3A :: 0x2F :: 0x2F :: rest := rfl
    rw [hmark, List.takeWhile_append_of_pos hscheme, List.takeWhile_cons_of_neg (by decide),
      List.append_nil]
  unfold afterScheme?
  dsimp only
  rw [htake]
  rfl

/-- The path of a URL with a scheme and an authority. -/
theorem path_http (ha : IsAuthority authority) (hne : authority ≠ []) (hp : IsPlainPath p)
    (hlength : (httpMark ++ (authority ++ p)).length ≤ maxLength) :
    path (httpMark ++ (authority ++ p)) = .ok p := by
  obtain ⟨rest, hrest⟩ := hp.rooted
  have hempty : authority.isEmpty = false := List.isEmpty_eq_false_iff.mpr hne
  have hpath : p.isEmpty = false := by rw [hrest]; rfl
  unfold path
  rw [if_neg (Nat.not_lt.mpr hlength)]
  -- The mark has more than one byte.
  show (if asciiByte 'h' = asciiByte '/' then _ else _) = _
  rw [if_neg (by decide), afterScheme?_http]
  show (splitAuthority (authority ++ p) >>= _) = _
  rw [splitAuthority_append ha hp]
  show (if authority.isEmpty then _ else if p.isEmpty then _ else readPath p) = _
  rw [hempty, hpath, if_neg (by decide), if_neg (by decide), readPath_plain hp]

end FrontDoor.Target
