import FrontDoor.Address.Socket
import FrontDoor.SystemError

/-!
# Addresses in use

A table says who listens at which address; no address has two listeners. An address whose port is
zero asks for any free port.
-/

namespace FrontDoor

/-- The addresses in use, each with its listener. -/
structure AddressTable (ι : Type) where
  entries : List (SocketAddress × ι)
  distinct : (entries.map (·.1)).Nodup

namespace AddressTable

variable {ι : Type}

def empty : AddressTable ι := ⟨[], .nil⟩

def listener? (t : AddressTable ι) (a : SocketAddress) : Option ι :=
  (t.entries.find? (·.1 = a)).map (·.2)

def isTaken (t : AddressTable ι) (a : SocketAddress) : Bool := (t.entries.map (·.1)).contains a

theorem isTaken_iff {t : AddressTable ι} {a : SocketAddress} :
    t.isTaken a = true ↔ a ∈ t.entries.map (·.1) := by
  simp [isTaken]

/-- The ports that are given out on demand: more than there are addresses in use. -/
def demandPorts (t : AddressTable ι) : List UInt16 :=
  (List.range (min (t.entries.length + 1) 28232)).map fun i => UInt16.ofNat (32768 + i)

/-- The address that a listener gets who asks for one, if it can be had. -/
def place? (t : AddressTable ι) (a : SocketAddress) : Option SocketAddress :=
  if a.port = 0 then (t.demandPorts.map a.withPort).find? fun b => !t.isTaken b
  else if t.isTaken a then none else some a

theorem place?_free {t : AddressTable ι} {a b : SocketAddress} (h : t.place? a = some b) :
    b ∉ t.entries.map (·.1) := by
  simp only [place?] at h
  rw [← isTaken_iff]
  split at h
  · simpa using List.find?_some h
  · split at h
    · cases h
    · next hn => cases h; exact hn

/-- Puts a listener at the address that it asks for. -/
def bind (t : AddressTable ι) (a : SocketAddress) (who : ι) :
    Except SystemError SocketAddress × AddressTable ι :=
  match h : t.place? a with
  | none => (.error .addressInUse, t)
  | some b => (.ok b, ⟨(b, who) :: t.entries, List.nodup_cons.2 ⟨place?_free h, t.distinct⟩⟩)

def release (t : AddressTable ι) (a : SocketAddress) : AddressTable ι where
  entries := t.entries.filter (·.1 ≠ a)
  distinct := t.distinct.sublist (List.filter_sublist.map _)

end AddressTable

end FrontDoor
