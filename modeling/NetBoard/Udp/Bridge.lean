/-
  NetBoard.Udp.Bridge
  ───────────────────
  **A USER'S PORT.**

  A bridge joins a port of the datagram crossbar to a user and converts
  between the width of the layer and that of the user.

  Main definition:

      Bridge.step  — one datagram to the user and one from the user
-/
import NetBoard.Crossbar
import NetBoard.Udp.Packet

namespace NetBoard.Udp

/-- The bridge of one port. -/
structure Bridge where
  port : UInt16
  /-- From the width of the layer to that of the user. -/
  stride : Stride
  /-- The user's pipes, named from the user's side. -/
  user : Link UserPacket
  /-- A datagram for which the user had no room. -/
  heldIn : Option UserPacket := none
  /-- A datagram for which the crossbar had no room. -/
  heldOut : Option Packet := none
  deriving Repr, DecidableEq, Inhabited

/-- A bridge with its port of the crossbar. -/
structure Bridge.Station where
  bridge : Bridge
  link : Link Packet
  deriving Repr, DecidableEq, Inhabited

namespace Bridge

/-! ## §1. Conversion. -/

/-- A datagram as the user receives it. -/
def toUser (b : Bridge) (p : Packet) : UserPacket :=
  { ip := p.ip, srcPort := p.srcPort, dstPort := p.dstPort, length := p.payload.length
    data := b.stride.convert (Beat.ofBytes b.stride.source p.payload) }

/-- A datagram as the user sends it.  No more octets leave than the user counted. -/
def ofUser (b : Bridge) (p : UserPacket) : Packet :=
  { ip := p.ip, srcPort := p.srcPort, dstPort := p.dstPort
    -- beats and count are the user's word; the shorter of the two wins
    payload := (Beat.toBytes b.stride.source (b.stride.reverse.convert p.data)).take p.length }

namespace Station

/-! ## §2. To the user. -/

/-- Pass the next datagram to the user. -/
def deliverNext (s : Station) : Outcome Station :=
  match s.link.inbound.take with
  | none => .idle s
  | some (packet, inbound) =>
    let (heldIn, toUser) := sendOrHold (s.bridge.toUser packet) s.bridge.user.inbound
    .moved { bridge := { s.bridge with heldIn, user := { s.bridge.user with inbound := toUser } }
             link := { s.link with inbound } }

/-- Pass on a held datagram first; while the user has no room nothing else is taken. -/
def deliver (s : Station) : Outcome Station :=
  match s.bridge.heldIn with
  | none => s.deliverNext
  | some packet =>
    match flush (some packet) s.bridge.user.inbound with
    | (false, _, _) => .idle s
    | (true, heldIn, inbound) =>
      (Outcome.moved { s with
        bridge := { s.bridge with heldIn, user := { s.bridge.user with inbound } } }).andThen
        deliverNext

/-! ## §3. From the user. -/

/-- Take the user's next datagram. -/
def collectNext (s : Station) : Outcome Station :=
  match s.bridge.user.outbound.take with
  | none => .idle s
  | some (packet, fromUser) =>
    let (heldOut, outbound) := sendOrHold (s.bridge.ofUser packet) s.link.outbound
    .moved { bridge := { s.bridge with heldOut, user := { s.bridge.user with outbound := fromUser } }
             link := { s.link with outbound } }

/-- Pass on a held datagram first; while the crossbar has no room nothing else is taken. -/
def collect (s : Station) : Outcome Station :=
  match s.bridge.heldOut with
  | none => s.collectNext
  | some packet =>
    match flush (some packet) s.link.outbound with
    | (false, _, _) => .idle s
    | (true, heldOut, outbound) =>
      (Outcome.moved { bridge := { s.bridge with heldOut }
                       link := { s.link with outbound } }).andThen collectNext

/-- One datagram to the user and one from the user. -/
def step (s : Station) : Outcome Station := s.deliver.andThen collect

end Station
end Bridge
end NetBoard.Udp
