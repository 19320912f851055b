/-
  NetBoard.Ip.Packet
  ──────────────────
  **IPV4 DATAGRAMS.**

  A datagram as the layers above see it, its 20-octet header without options,
  the cut of a long one into fragments, and the reading of a received one.
  Only complete datagrams are received: fragments are refused.

  Main definitions:

      fragmentSize    — the most payload octets of a fragment
      Packet.headers  — the header and payload of every fragment
      Packet.read     — the datagram in a frame, or why there is none
-/
import NetBoard.Checksum
import NetBoard.Ethernet.Frame

namespace NetBoard.Ip

/-! ## §1. Numbers of the standard. -/

/-- The octets of a header. -/
def headerLength : Nat := 20

/-- The most payload octets of a datagram. -/
def maxPayloadLength : Nat := 65535 - headerLength

/-- The octets of a frame that an MTU leaves to headers, check sequence and preamble. -/
def frameOverhead : Nat := 30

/-- The flag of all fragments but the last. -/
def moreFragments : Nat := 1

/-- The header. -/
def header : Header where
  fields :=
    [⟨"version", 0, 4, 4⟩, ⟨"ihl", 0, 0, 4⟩, ⟨"diff_services", 1, 0, 8⟩,
     ⟨"total_length", 2, 0, 16⟩, ⟨"identification", 4, 0, 16⟩, ⟨"flags", 6, 13, 3⟩,
     ⟨"fragment_offset", 6, 0, 13⟩, ⟨"ttl", 8, 0, 8⟩, ⟨"protocol", 9, 0, 8⟩,
     ⟨"checksum", 10, 0, 16⟩, ⟨"sender_ip", 12, 0, 32⟩, ⟨"target_ip", 16, 0, 32⟩]
  length := headerLength

/-- The most payload octets of one fragment: what the MTU leaves, in units of
eight octets, but at least one unit. -/
def fragmentSize (mtu : Nat) : Nat := max 8 ((mtu - (frameOverhead + headerLength)) / 8 * 8)

/-! ## §2. Datagrams. -/

/-- A datagram; the address is the other station's. -/
structure Packet where
  ip : Ipv4
  protocol : UInt8
  payload : Bytes
  deriving Repr, DecidableEq, Inhabited

instance : Keyed Packet := ⟨fun p => p.protocol.toUInt16⟩

namespace Packet

/-! ## §3. Transmission. -/

/-- The payloads of the fragments; an empty datagram has one empty fragment. -/
def chunks (size : Nat) (payload : Bytes) : List Bytes :=
  if payload.isEmpty then [[]] else payload.words size

/-- The header of one fragment, with its checksum. -/
def fragmentFields (p : Packet) (sender : Ipv4) (identification : UInt16) (offset length : Nat)
    (more : Bool) : Fields :=
  let values := (((((((((({} : Fields).set "version" 4).set "ihl" 5).set
    "total_length" (length + headerLength)).set "identification" identification.toNat).set
    "flags" (if more then moreFragments else 0)).set "fragment_offset" (offset / 8)).set
    "ttl" 0x80).set "protocol" p.protocol.toNat).set "sender_ip" sender.toNat).set
    "target_ip" p.ip.toNat
  values.set "checksum" (checksumSkipping (header.encode values) 10).toNat

/-- The header and payload of every fragment, in order. -/
def headers (p : Packet) (sender : Ipv4) (identification : UInt16) (size : Nat) :
    List (Fields × Bytes) :=
  let cut := chunks size p.payload
  cut.zipIdx.map fun (chunk, i) =>
    (p.fragmentFields sender identification (i * size) chunk.length (i + 1 < cut.length), chunk)

/-! ## §4. Reception. -/

/-- Why a received frame holds no datagram for this board. -/
inductive Defect where
  | truncated
  | unsupported
  | badChecksum
  | notForUs
  | fragment
  | badLength
  deriving Repr, DecidableEq, Inhabited

/-- The reason as logged; datagrams for other stations are not worth a line. -/
def Defect.reason? : Defect → Option String
  | truncated => some "truncated header"
  | unsupported => some "unsupported version or options"
  | badChecksum => some "bad header checksum"
  | notForUs => none
  | fragment => some "fragment received, no reassembly"
  | badLength => some "bad total length"

/-- The datagram of a header and what follows it; `bs` is the whole frame
payload.  Whatever lies beyond the total length is padding. -/
def ofFields (localIp : Ipv4) (promiscuous : Bool) (bs : Bytes) (values : Fields)
    (payload : Bytes) : Except Defect Packet :=
  let totalLength := values.get "total_length"
  -- the first check that fails is the one that is counted
  if values.get "version" ≠ 4 ∨ values.get "ihl" ≠ 5 then .error .unsupported
  else if checksum (bs.take headerLength) ≠ 0 then .error .badChecksum
  else if !promiscuous && values.ip "target_ip" != localIp then .error .notForUs
  else if values.get "flags" &&& moreFragments ≠ 0 ∨ values.get "fragment_offset" ≠ 0 then
    .error .fragment
  else if totalLength < headerLength ∨ payload.length < totalLength - headerLength then
    .error .badLength
  else .ok
    { ip := values.ip "sender_ip"
      protocol := UInt8.ofNat (values.get "protocol")
      payload := payload.take (totalLength - headerLength) }

/-- Read the datagram in a frame payload. -/
def read (d : Depacketizer) (localIp : Ipv4) (promiscuous : Bool) (bs : Bytes) :
    Depacketizer × Except Defect Packet :=
  let (d, packet) := d.depacketize bs
  (d, match packet with
    | none => .error .truncated
    | some (values, payload) => ofFields localIp promiscuous bs values payload)

end Packet
end NetBoard.Ip
