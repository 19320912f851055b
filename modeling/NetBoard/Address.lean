/-
  NetBoard.Address
  ────────────────
  **HARDWARE AND INTERNET ADDRESSES.**

  An address is its octets in the order they are sent.  Header fields carry
  addresses as big-endian numbers; longer numbers are cut to the low octets.
-/
import NetBoard.Bytes
import NetBoard.Text.Number

namespace NetBoard

/-! ## §1. Hardware addresses. -/

/-- A 48-bit hardware address. -/
structure MacAddress where
  o0 : UInt8
  o1 : UInt8
  o2 : UInt8
  o3 : UInt8
  o4 : UInt8
  o5 : UInt8
  deriving Repr, DecidableEq, Inhabited

namespace MacAddress

/-- The octets as sent. -/
def octets (m : MacAddress) : Bytes := [m.o0, m.o1, m.o2, m.o3, m.o4, m.o5]

/-- The address as a number. -/
def toNat (m : MacAddress) : Nat := m.octets.toNatBE

/-- The address of the 48 low bits. -/
def ofNat (v : Nat) : MacAddress :=
  ⟨UInt8.ofNat (v >>> 40), UInt8.ofNat (v >>> 32), UInt8.ofNat (v >>> 24),
   UInt8.ofNat (v >>> 16), UInt8.ofNat (v >>> 8), UInt8.ofNat v⟩

/-- All stations of the segment. -/
def broadcast : MacAddress := ⟨0xff, 0xff, 0xff, 0xff, 0xff, 0xff⟩

/-- Six groups of two hexadecimal digits between colons. -/
def text (m : MacAddress) : String :=
  ":".intercalate (m.octets.map fun o => Text.hexPadded 2 o.toNat)

end MacAddress

/-! ## §2. Internet addresses. -/

/-- An IPv4 address. -/
structure Ipv4 where
  o0 : UInt8
  o1 : UInt8
  o2 : UInt8
  o3 : UInt8
  deriving Repr, DecidableEq, Inhabited

namespace Ipv4

/-- The octets as sent. -/
def octets (a : Ipv4) : Bytes := [a.o0, a.o1, a.o2, a.o3]

/-- The address as a number. -/
def toNat (a : Ipv4) : Nat := a.octets.toNatBE

/-- The address of the 32 low bits. -/
def ofNat (v : Nat) : Ipv4 :=
  ⟨UInt8.ofNat (v >>> 24), UInt8.ofNat (v >>> 16), UInt8.ofNat (v >>> 8), UInt8.ofNat v⟩

/-- The address 0.0.0.0, held before one is assigned. -/
def unspecified : Ipv4 := ⟨0, 0, 0, 0⟩

/-- Four decimal numbers between dots. -/
def text (a : Ipv4) : String :=
  ".".intercalate (a.octets.map fun o => toString o.toNat)

/-- Does a datagram to this address go to all stations?  Every address ending
in 255 counts. -/
def isBroadcast (a : Ipv4) : Bool := a.o3 == 0xff

/-- Is this a group address, in 224.0.0.0/4? -/
def isMulticast (a : Ipv4) : Bool := a.o0 >>> 4 == 0xe

/-- The hardware address of a group: 01:00:5e and the 23 low bits. -/
def multicastMac (a : Ipv4) : MacAddress := ⟨0x01, 0x00, 0x5e, a.o1 &&& 0x7f, a.o2, a.o3⟩

end Ipv4
end NetBoard
