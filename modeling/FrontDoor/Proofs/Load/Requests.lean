import FrontDoor.Load.Task
import FrontDoor.Proofs.Address.Authority
import FrontDoor.Proofs.Door.Run

/-!
# Requests to an address

When the target of a plan is a socket address behind the scheme, perhaps with slashes at its end,
every task has a request (`request?_eq`), and the door finds in it what the task is about. An
address with a scope is no host of a URL, so over such a target no task has one
(`request?_of_scope`).
-/

namespace FrontDoor

/-! ## Identifiers -/

namespace Uuid

/-- The characters of an identifier. -/
def alphabet : List Char := "0123456789abcdef-".toList

theorem mem_alphabet_of_mem_lastHexDigits {width n : ℕ} {c : Char}
    (h : c ∈ Digits.lastHexDigits width n) : c ∈ alphabet := by
  have hdigit : ∀ d < 16, Nat.digitChar d ∈ alphabet := by decide
  induction width generalizing n with
  | zero => exact absurd h List.not_mem_nil
  | succ width ih =>
    rw [Digits.lastHexDigits, List.mem_append, List.mem_singleton] at h
    rcases h with h | rfl
    · exact ih h
    · exact hdigit _ (Nat.mod_lt n (by decide))

theorem length_lastHexDigits (width n : ℕ) : (Digits.lastHexDigits width n).length = width := by
  induction width generalizing n with
  | zero => rfl
  | succ width ih => rw [Digits.lastHexDigits, List.length_append, ih, List.length_singleton]

theorem mem_alphabet (u : Uuid) : ∀ c ∈ u.chars, c ∈ alphabet := by
  have hdash : '-' ∈ alphabet := by decide
  have hfour : '4' ∈ alphabet := by decide
  intro c hc
  simp only [chars, groups, List.intercalate, List.intersperse, List.flatten_cons,
    List.flatten_nil, List.mem_append, List.mem_cons, List.not_mem_nil, or_false] at hc
  rcases hc with hc | rfl | hc | rfl | (rfl | hc) | rfl | hc | rfl | hc
  all_goals first | exact hdash | exact hfour | exact mem_alphabet_of_mem_lastHexDigits hc

theorem length_chars (u : Uuid) : u.chars.length = 36 := by
  simp [chars, groups, List.intercalate, List.intersperse, length_lastHexDigits]

end Uuid

namespace LoadPlan

open Percent

variable {p : LoadPlan} {a : SocketAddress} {slashes : ℕ}

/-! ## Keys and paths -/

theorem toList_key (p : LoadPlan) (t : LoadTask) :
    (p.key t).toList = t.uuid.chars.take p.keyLength.toNat := String.toList_ofList

theorem mem_alphabet_of_mem_key {t : LoadTask} {c : Char} (h : c ∈ (p.key t).toList) :
    c ∈ Uuid.alphabet := by
  rw [toList_key] at h
  exact t.uuid.mem_alphabet c (List.mem_of_mem_take h)

theorem slash_not_mem_key (p : LoadPlan) (t : LoadTask) : '/' ∉ (p.key t).toList := fun h =>
  absurd (mem_alphabet_of_mem_key h) (by decide)

theorem key_eq_empty_iff (t : LoadTask) : p.key t = "" ↔ p.keyLength = 0 := by
  rw [← String.toList_inj, toList_key, String.toList_empty, ← UInt64.toNat_inj]
  have hlength := t.uuid.length_chars
  constructor
  · intro h
    have := congrArg List.length h
    rw [List.length_take, hlength] at this
    simp only [List.length_nil] at this
    show p.keyLength.toNat = 0
    omega
  · intro h
    rw [h]
    rfl

/-- The path to which the request of a task goes. -/
def path (p : LoadPlan) (t : LoadTask) : List Char :=
  match t.kind with
  | .write => "/key".toList
  | .read => "/key/".toList ++ (p.key t).toList

theorem url_eq (p : LoadPlan) (t : LoadTask) : p.url t = p.base ++ p.path t := by
  unfold url path
  cases t.kind with
  | write => rfl
  | read => exact List.append_assoc _ _ _

theorem chars_path (t : LoadTask) : ∀ c ∈ p.path t, c ∈ "/key0123456789abcdef-".toList := by
  have hkey : ∀ c ∈ Uuid.alphabet, c ∈ "/key0123456789abcdef-".toList :=
    List.all_iff_forall_prop.mp (by decide)
  have hprefix : ∀ c ∈ "/key/".toList, c ∈ "/key0123456789abcdef-".toList :=
    List.all_iff_forall_prop.mp (by decide)
  intro c hc
  unfold path at hc
  split at hc
  · exact hprefix c ((List.prefix_append "/key".toList ['/']).subset hc)
  · rcases List.mem_append.mp hc with hc | hc
    · exact hprefix c hc
    · exact hkey c (mem_alphabet_of_mem_key hc)

theorem length_path_le (t : LoadTask) : (p.path t).length ≤ 41 := by
  unfold path
  split
  · decide
  · have hkey : (p.key t).toList.length ≤ 36 := by
      rw [toList_key, ← t.uuid.length_chars]
      exact List.length_take_le' _ _
    rw [List.length_append]
    have hprefix : "/key/".toList.length = 5 := rfl
    omega

theorem isAscii_path (p : LoadPlan) (t : LoadTask) : Utf8.IsAscii (p.path t) := by
  have hascii : ∀ c ∈ "/key0123456789abcdef-".toList, c.toNat < 0x80 :=
    List.all_iff_forall_prop.mp (by decide)
  exact fun c hc => hascii c (chars_path t c hc)

theorem isPlainPath (p : LoadPlan) (t : LoadTask) :
    Target.IsPlainPath (Utf8.encode (p.path t)) := by
  have hbytes : ∀ c ∈ "/key0123456789abcdef-".toList, Target.isPathByte (asciiByte c) = true ∧
      asciiByte c ≠ asciiByte '?' ∧ asciiByte c ≠ asciiByte '#' :=
    List.all_iff_forall_prop.mp (by decide)
  have hpath : ∀ b ∈ Utf8.encode (p.path t), Target.isPathByte b = true ∧
      b ≠ asciiByte '?' ∧ b ≠ asciiByte '#' := by
    intro b hb
    rw [Utf8.encode_ascii (isAscii_path p t)] at hb
    obtain ⟨c, hc, rfl⟩ := List.mem_map.mp hb
    exact hbytes c (chars_path t c hc)
  refine ⟨?_, ?_, fun h => (hpath _ h).2.1 rfl, fun h => (hpath _ h).2.2 rfl,
    Utf8.valid_encode _⟩
  · unfold path
    split
    · exact ⟨_, rfl⟩
    · exact ⟨_, rfl⟩
  · exact List.all_eq_true.mpr fun b hb => (hpath b hb).1

/-! ## Targets -/

/-- The method of the requests of tasks of a kind, as the door knows it. -/
def methodOf : TaskKind → Method
  | .write => .post
  | .read => .get

/-- The request of a task, when the target names a node. -/
def requestOf (p : LoadPlan) (t : LoadTask) : Request :=
  ⟨methodOf t.kind, Utf8.encode (p.path t), p.body t⟩

theorem isPortPart_text (port : UInt16) :
    isPortPart (':' :: Nat.toDigits 10 port.toNat) = true := by
  have hport : port.toNat ≤ 65535 := Nat.le_of_lt_succ port.toNat_lt
  rw [isPortPart, Digits.value?_toDigits Digits.reads_decimalDigit? (by decide), Option.any_some,
    decide_eq_true hport]

/-- A character that ends a written address. -/
theorem closed_of_head {c : Char} (hdigit : Digits.hexDigit? c = none) (hdot : c ≠ '.')
    (hcolon : c ≠ ':') (cs : List Char) : Ipv6.Closed (c :: cs) where
  noDigit := by
    rintro _ ⟨⟩
    rw [hdigit]
    rfl
  noDot := by
    rintro _ ⟨⟩
    exact hdot
  noGroup tail h := absurd (List.cons.inj h).1 hcolon

/-- An address without a scope names a host and a port. -/
theorem isAuthority_text {a : SocketAddress} (h : a.scope = 0) :
    isAuthority a.text.toList = true := by
  cases a with
  | v4 ip port =>
    have hip := AddressText.ipv4 ip
    have hcolon : ':' ∉ ip.text.toList := List.count_eq_zero.mp (Nat.le_zero.mp hip.colons)
    have hbracket : '[' ∉ ip.text.toList := fun h => absurd (hip.chars _ h) (by decide)
    have hdot : '.' ∈ ip.text.toList := by
      rw [Ipv4.toList_text]
      simp
    have hhost : (ip.text.toList ++ ':' :: Nat.toDigits 10 port.toNat).takeWhile (· ≠ ':') =
        ip.text.toList := by
      have hother : ∀ c ∈ ip.text.toList, decide (c ≠ ':') = true := fun c hc =>
        decide_eq_true (by rintro rfl; exact hcolon hc)
      rw [List.takeWhile_append_of_pos hother, List.takeWhile_cons_of_neg (by decide),
        List.append_nil]
    have hsome : ip.text.toList.isEmpty = false :=
      List.isEmpty_eq_false_iff.mpr (List.ne_nil_of_mem hdot)
    rw [SocketAddress.toList_text_v4]
    unfold isAuthority
    split
    · next cs heq =>
      cases hcs : ip.text.toList with
      | nil => exact absurd hcs (List.ne_nil_of_mem hdot)
      | cons c cs =>
        rw [hcs, List.cons_append] at heq
        exact absurd (by rw [hcs, (List.cons.inj heq).1]; exact List.mem_cons_self) hbracket
    · dsimp only
      rw [hhost, List.drop_left, hsome, isPortPart_text port]
      rfl
  | v6 ip scope port =>
    obtain rfl : scope = 0 := h
    rw [SocketAddress.toList_text_v6, isAuthority,
      Ipv6.read?_text ip (closed_of_head (by decide) (by decide) (by decide) _)]
    exact isPortPart_text port

/-- An address with a scope does not. -/
theorem not_isAuthority_text {a : SocketAddress} (h : a.scope ≠ 0) :
    isAuthority (a.text.toList.takeWhile fun c => c ≠ '/' && c ≠ '?' && c ≠ '#') = false := by
  have hpass : ∀ c ∈ "0123456789abcdef.:".toList, (c ≠ '/' && c ≠ '?' && c ≠ '#') = true :=
    List.all_iff_forall_prop.mp (by decide)
  cases a with
  | v4 ip port => exact absurd rfl h
  | v6 ip scope port =>
    have hscope : scope ≠ 0 := h
    obtain ⟨rest, hrest⟩ := SocketAddress.exists_text_of_scope ip hscope port
    rw [hrest, List.takeWhile_cons_of_pos (by decide),
      List.takeWhile_append_of_pos fun c hc => hpass c ((AddressText.ipv6 ip).chars c hc),
      List.takeWhile_cons_of_pos (by decide), isAuthority,
      Ipv6.read?_text ip (closed_of_head (by decide) (by decide) (by decide) _)]
    rfl

/-- What the target of a plan is when it is to reach an address. -/
def urlOf (a : SocketAddress) (slashes : ℕ) : String :=
  "http://" ++ a.text ++ String.ofList (List.replicate slashes '/')

section Reaching

variable (htarget : p.target = urlOf a slashes)
include htarget

theorem base_eq : p.base = "http://".toList ++ a.text.toList := by
  -- The address ends in a digit, so of the target just the slashes behind it are cut off.
  obtain ⟨front, hfront⟩ := a.exists_text_eq
  obtain hnil | ⟨digits, c, hdigits⟩ := List.eq_nil_or_concat (Nat.toDigits 10 a.port.toNat)
  · exact absurd hnil Nat.toDigits_ne_nil
  have hc : c ≠ '/' := by
    have hmem := (AddressText.port a.port).chars c (by rw [hdigits]; simp)
    rintro rfl
    exact absurd hmem (by decide)
  rw [hdigits, List.concat_eq_append, ← List.append_assoc] at hfront
  have hreverse : p.target.toList.reverse =
      List.replicate slashes '/' ++ c :: ("http://".toList ++ (front ++ digits)).reverse := by
    rw [htarget, urlOf, String.toList_append, String.toList_append, String.toList_ofList, hfront]
    simp
  rw [base, hreverse, List.dropWhile_append_of_pos (by simp),
    List.dropWhile_cons_of_neg (by simpa using hc), hfront]
  simp

theorem namesNode_eq : p.namesNode =
    isAuthority (a.text.toList.takeWhile fun c => c ≠ '/' && c ≠ '?' && c ≠ '#') := by
  unfold namesNode
  rw [base_eq htarget]
  dsimp only
  rw [List.drop_left, List.isPrefixOf_iff_prefix.mpr (List.prefix_append _ _), Bool.true_and]

theorem namesNode_of_no_scope (h : a.scope = 0) : p.namesNode = true := by
  have hend : ∀ c ∈ "0123456789abcdef.:[]".toList, (c ≠ '/' && c ≠ '?' && c ≠ '#') = true :=
    List.all_iff_forall_prop.mp (by decide)
  rw [namesNode_eq htarget, List.takeWhile_eq_self_iff.mpr fun c hc =>
    hend c (SocketAddress.chars_text h c hc)]
  exact isAuthority_text h

theorem namesNode_of_scope (h : a.scope ≠ 0) : p.namesNode = false := by
  rw [namesNode_eq htarget]
  exact not_isAuthority_text h

/-- Every task has a request. -/
theorem request?_eq (h : a.scope = 0) (t : LoadTask) : p.request? t = some (p.requestOf t) := by
  have hmethod : Method.ofBytes? (Json.asciiBytes (method t)) = some (methodOf t.kind) := by
    unfold method
    cases t.kind <;> decide
  have hauthority : Utf8.encode a.text.toList = a.text.toList.map asciiByte := by
    have hascii : ∀ c ∈ "0123456789abcdef.:[]".toList, c.toNat < 0x80 :=
      List.all_iff_forall_prop.mp (by decide)
    exact Utf8.encode_ascii fun c hc => hascii c (SocketAddress.chars_text h c hc)
  have hurl : Utf8.encode (p.url t) =
      Target.httpMark ++ (a.text.toList.map asciiByte ++ Utf8.encode (p.path t)) := by
    rw [url_eq, base_eq htarget, Utf8.encode_append, Utf8.encode_append, hauthority,
      List.append_assoc]
    rfl
  have hlength : (Target.httpMark ++ (a.text.toList.map asciiByte ++
      Utf8.encode (p.path t))).length ≤ Target.maxLength := by
    have ha := SocketAddress.length_text_le h
    have hp := p.length_path_le t
    rw [Utf8.encode_ascii (isAscii_path p t)]
    simp only [List.length_append, List.length_map]
    have hmark : Target.httpMark.length = 7 := rfl
    have hmax : Target.maxLength = 65534 := rfl
    omega
  have hne : a.text.toList.map asciiByte ≠ [] := by
    simpa using SocketAddress.text_ne_nil h
  rw [request?, if_pos (namesNode_of_no_scope htarget h), Request.read, hmethod, hurl,
    Target.path_http (SocketAddress.isAuthority_text h) hne (isPlainPath p t) hlength]
  rfl

/-- An address with a scope is no host, so nothing is sent. -/
theorem request?_of_scope (h : a.scope ≠ 0) (t : LoadTask) : p.request? t = none := by
  rw [request?, namesNode_of_scope htarget h]
  rfl

end Reaching

end LoadPlan

end FrontDoor
