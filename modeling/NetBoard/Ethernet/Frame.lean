/-
  NetBoard.Ethernet.Frame
  ───────────────────────
  **ETHERNET FRAMES.**

  A frame as the layers above see it: addresses, Ethernet type and payload.
  On the wire fourteen header octets come first.
-/
import NetBoard.Crossbar
import NetBoard.Header.Depacketizer

namespace NetBoard.Ethernet

/-! ## §1. Numbers of the standard. -/

/-- The type of IPv4 datagrams. -/
def typeIp : UInt16 := 0x0800

/-- The type of ARP messages. -/
def typeArp : UInt16 := 0x0806

/-- The shortest frame, without its check sequence. -/
def minFrameLength : Nat := 60

/-- The shortest payload. -/
def minPayloadLength : Nat := 46

/-- The header in front of every frame. -/
def header : Header where
  fields := [⟨"target_mac", 0, 0, 48⟩, ⟨"sender_mac", 6, 0, 48⟩, ⟨"ethernet_type", 12, 0, 16⟩]
  length := 14

/-! ## §2. Frames. -/

/-- A frame without padding, check sequence or preamble. -/
structure Frame where
  target : MacAddress
  sender : MacAddress
  type : UInt16
  payload : Bytes
  deriving Repr, DecidableEq, Inhabited

instance : Keyed Frame := ⟨Frame.type⟩

namespace Frame

/-- The header of a frame. -/
def fields (f : Frame) : Fields :=
  (((({} : Fields).set "target_mac" f.target.toNat).set "sender_mac" f.sender.toNat).set
    "ethernet_type" f.type.toNat)

/-- The frame of a header and a payload. -/
def ofFields (values : Fields) (payload : Bytes) : Frame where
  target := values.mac "target_mac"
  sender := values.mac "sender_mac"
  type := UInt16.ofNat (values.get "ethernet_type")
  payload := payload

/-- Read a frame that carries neither preamble nor check sequence. -/
def decode? (bs : Bytes) : Option Frame :=
  let d : Depacketizer := { format := header, width := 1 }
  (d.depacketize bs).2.map fun (values, payload) => ofFields values payload

end Frame
end NetBoard.Ethernet
