/-
  NetBoard.Udp.Packet
  ───────────────────
  **UDP DATAGRAMS.**

  A datagram inside the layer is an octet string; at a user's port it is a
  stream of beats of the port's width with the number of octets that count.
-/
import NetBoard.Ip.Packet

namespace NetBoard.Udp

/-! ## §1. Numbers of the standard. -/

/-- The IP protocol of datagrams. -/
def protocol : UInt8 := 17

/-- The octets of a header. -/
def headerLength : Nat := 8

/-- The most payload octets of a datagram. -/
def maxPayloadLength : Nat := Ip.maxPayloadLength - headerLength

/-- The header; its checksum is never used. -/
def header : Header where
  fields :=
    [⟨"src_port", 0, 0, 16⟩, ⟨"dst_port", 2, 0, 16⟩, ⟨"length", 4, 0, 16⟩, ⟨"checksum", 6, 0, 16⟩]
  length := headerLength

/-! ## §2. Inside the layer. -/

/-- A datagram; the address is the other station's. -/
structure Packet where
  ip : Ipv4
  srcPort : UInt16
  dstPort : UInt16
  payload : Bytes
  deriving Repr, DecidableEq, Inhabited

instance : Keyed Packet := ⟨Packet.dstPort⟩

/-- The header of a datagram. -/
def Packet.fields (p : Packet) : Fields :=
  (((({} : Fields).set "src_port" p.srcPort.toNat).set "dst_port" p.dstPort.toNat).set
    "length" (p.payload.length + headerLength)).set "checksum" 0

/-- The datagram of a header and what follows it; none, and the length field,
if that is no length of a datagram that fits.  What lies beyond the length is dropped. -/
def Packet.ofFields (ip : Ipv4) (values : Fields) (payload : Bytes) : Except Nat Packet :=
  let length := values.get "length"
  if length < headerLength ∨ payload.length < length - headerLength then .error length
  else .ok
    { ip
      srcPort := UInt16.ofNat (values.get "src_port")
      dstPort := UInt16.ofNat (values.get "dst_port")
      payload := payload.take (length - headerLength) }

/-! ## §3. At a user's port. -/

/-- A datagram as its user sees it. -/
structure UserPacket where
  /-- The other station. -/
  ip : Ipv4
  srcPort : UInt16
  dstPort : UInt16
  /-- The octets that count. -/
  length : Nat
  data : List Beat
  deriving Repr, DecidableEq, Inhabited

namespace UserPacket

/-- A datagram that carries `payload` on a port of `width` lanes. -/
def ofBytes (ip : Ipv4) (srcPort dstPort : UInt16) (payload : Bytes) (width : Nat) : UserPacket :=
  { ip, srcPort, dstPort, length := payload.length, data := Beat.ofBytes width payload }

/-- The octets carried on a port of `width` lanes. -/
def bytes (p : UserPacket) (width : Nat) : Bytes := (Beat.toBytes width p.data).take p.length

end UserPacket
end NetBoard.Udp
