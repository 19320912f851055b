/-
  NetBoard.Ip.Layer
  ─────────────────
  **THE IPV4 LAYER.**

  Datagrams of the protocols are sent one at a time: the address of the next
  station is resolved, the datagram is cut into fragments, and the fragments
  leave one a step.  Received frames are checked and handed to the crossbar.

  Main definitions:

      Station.transmit  — one transition of the sender
      Station.receive   — one received frame
      Station.step      — crossbar, sender and receiver
-/
import NetBoard.Arp.Message
import NetBoard.Ip.Packet

namespace NetBoard.Ip

/-! ## §1. States. -/

/-- Where the sender stands. -/
inductive Sending where
  | idle
  /-- The address of this datagram must be looked up. -/
  | resolve (packet : Packet)
  /-- The lookup for this datagram is under way. -/
  | wait (packet : Packet)
  /-- These fragments of a datagram are still to be sent. -/
  | send (fragments : List Ethernet.Frame)
  deriving Repr, DecidableEq, Inhabited

/-- What the layer has handled. -/
structure Stats where
  rxPackets : Nat := 0
  txPackets : Nat := 0
  txFragments : Nat := 0
  checksumErrors : Nat := 0
  invalid : Nat := 0
  notForUs : Nat := 0
  fragmentsDropped : Nat := 0
  targetUnreachable : Nat := 0
  /-- Datagrams too long for the total length of a header. -/
  txOversize : Nat := 0
  deriving Repr, DecidableEq, Inhabited

/-- The IPv4 layer. -/
structure Layer where
  mac : MacAddress
  /-- Are datagrams for other addresses received too? -/
  promiscuous : Bool
  fragmentSize : Nat
  crossbar : Crossbar Packet
  packetizer : Packetizer
  depacketizer : Depacketizer
  sending : Sending := .idle
  /-- The identification of the next datagram. -/
  identification : UInt16 := 0
  /-- A lookup for which the resolver had no room. -/
  heldLookup : Option Ipv4 := none
  /-- A fragment for which the MAC had no room. -/
  heldOut : Option Ethernet.Frame := none
  /-- A received datagram for which the crossbar had no room. -/
  heldIn : Option Packet := none
  /-- Was a datagram dropped in the latest step because its station did not answer? -/
  unreachable : Bool := false
  stats : Stats := {}
  deriving Repr, DecidableEq, Inhabited

/-- The layer with everything it works on. -/
structure Station where
  layer : Layer
  /-- Its port of the MAC. -/
  link : Link Ethernet.Frame
  table : Arp.Table
  /-- The address of the board. -/
  localIp : Ipv4
  deriving Repr, DecidableEq, Inhabited

namespace Layer

/-- The name under which the layer logs. -/
def source : String := "ip"

/-- A layer without subscribers. -/
def make (mac : MacAddress) (mtu : Nat) (promiscuous : Bool) (width depth : Nat) : Layer where
  mac := mac
  promiscuous := promiscuous
  fragmentSize := Ip.fragmentSize mtu
  crossbar := .make .ipProtocol depth
  packetizer := { header, width }
  depacketizer := { format := header, width }

/-- Subscribe to a protocol. -/
def register (l : Layer) (protocol : UInt8) : Except Fault (Layer × List Log.Line) := do
  let (crossbar, log) ← l.crossbar.register protocol.toUInt16
  return ({ l with crossbar }, log)

/-! ## §2. Fragments. -/

/-- Cut a datagram into frames for a station, under a fresh identification. -/
def fragment (l : Layer) (localIp : Ipv4) (packet : Packet) (mac : MacAddress) :
    Layer × List Log.Line :=
  let parts := packet.headers localIp l.identification l.fragmentSize
  let (packetizer, frames) := parts.foldl (fun (p, frames) (values, chunk) =>
    let (p, payload) := p.packetize values chunk
    let frame : Ethernet.Frame := { target := mac, sender := l.mac, type := Ethernet.typeIp, payload }
    (p, frame :: frames)) (l.packetizer, [])
  let name := Text.hexTagged 4 l.identification.toNat
  let log :=
    if 1 < parts.length then
      [⟨Log.high, source,
        s!"datagram {name} of {packet.payload.length} bytes split in {parts.length} fragments"⟩]
    else []
  ({ l with
      packetizer
      sending := .send frames.reverse
      identification := l.identification + 1
      stats := { l.stats with txPackets := l.stats.txPackets + 1 } }, log)

/-! ## §3. Counting. -/

/-- Count a defect of a received frame. -/
def countDefect (d : Packet.Defect) (s : Stats) : Stats :=
  match d with
  | .truncated | .unsupported | .badLength => { s with invalid := s.invalid + 1 }
  | .badChecksum => { s with checksumErrors := s.checksumErrors + 1 }
  | .notForUs => { s with notForUs := s.notForUs + 1 }
  | .fragment => { s with fragmentsDropped := s.fragmentsDropped + 1 }

/-- Read a received frame; a defect is counted and logged. -/
def accept (l : Layer) (localIp : Ipv4) (bs : Bytes) : Layer × Option Packet × List Log.Line :=
  match Packet.read l.depacketizer localIp l.promiscuous bs with
  | (depacketizer, .ok packet) => ({ l with depacketizer }, some packet, [])
  | (depacketizer, .error d) =>
    ({ l with depacketizer, stats := countDefect d l.stats }, none,
      d.reason?.toList.map fun reason =>
        ⟨Log.medium, source, s!"rx datagram dropped, {reason}"⟩)

end Layer

namespace Station

/-! ## §4. Transmission. -/

/-- Cut a datagram and start to send it. -/
def startSending (s : Station) (packet : Packet) (mac : MacAddress) : Outcome Station :=
  let (layer, log) := s.layer.fragment s.localIp packet mac
  .moved { s with layer } log

/-- Begin with the next datagram of the crossbar.  Broadcast and group
datagrams need no lookup. -/
def begin (s : Station) : Outcome Station :=
  let l := s.layer
  match l.crossbar.outbox.take with
  | none => .idle s
  | some (packet, outbox) =>
    let l := { l with crossbar := { l.crossbar with outbox } }
    let s := { s with layer := l }
    -- before any lookup, so that an oversize datagram asks nobody
    if maxPayloadLength < packet.payload.length then
      let stats := { l.stats with txOversize := l.stats.txOversize + 1 }
      .moved { s with layer := { l with stats } }
        [⟨Log.medium, Layer.source,
          s!"datagram of {packet.payload.length} bytes to {packet.ip.text} exceeds the IPv4 maximum, dropped"⟩]
    else if packet.ip.isBroadcast then s.startSending packet .broadcast
    else if packet.ip.isMulticast then s.startSending packet packet.ip.multicastMac
    else .moved { s with layer := { l with sending := .resolve packet } }

/-- Ask the resolver for the station of a datagram. -/
def resolve (s : Station) (packet : Packet) : Outcome Station :=
  if s.layer.heldLookup.isSome then .idle s
  else
    let (heldLookup, lookups) := sendOrHold packet.ip s.table.lookups
    .moved { s with
      layer := { s.layer with heldLookup, sending := .wait packet }
      table := { s.table with lookups } }

/-- Wait for the answer of the resolver; without an address the datagram is dropped. -/
def await (s : Station) (packet : Packet) : Outcome Station :=
  match s.table.answers.take with
  | none => .idle s
  | some (answer, answers) =>
    let s := { s with table := { s.table with answers } }
    match answer.mac with
    | some mac => s.startSending packet mac
    | none =>
      let stats := { s.layer.stats with targetUnreachable := s.layer.stats.targetUnreachable + 1 }
      .moved { s with layer := { s.layer with stats, unreachable := true, sending := .idle } }
        [⟨Log.medium, Layer.source, s!"target {packet.ip.text} unreachable, datagram dropped"⟩]

/-- Send the next fragment. -/
def sendFragment (s : Station) (fragments : List Ethernet.Frame) : Outcome Station :=
  match fragments with
  | [] => .idle { s with layer := { s.layer with sending := .idle } }
  | frame :: rest =>
    let (heldOut, outbound) := sendOrHold frame s.link.outbound
    let stats := { s.layer.stats with txFragments := s.layer.stats.txFragments + 1 }
    -- idle with the last fragment: the next datagram need not wait a step
    let sending := if rest.isEmpty then .idle else .send rest
    .moved { s with
      layer := { s.layer with heldOut, stats, sending }
      link := { s.link with outbound } }

/-- One transition of the sender. -/
def advance (s : Station) : Outcome Station :=
  match s.layer.sending with
  | .idle => s.begin
  | .resolve packet => s.resolve packet
  | .wait packet => s.await packet
  | .send fragments => s.sendFragment fragments

/-- Pass on a held lookup. -/
def flushLookup (s : Station) : Outcome Station :=
  let (left, heldLookup, lookups) := flush s.layer.heldLookup s.table.lookups
  { state := { s with
      layer := { s.layer with heldLookup }
      table := { s.table with lookups } }
    progress := left }

/-- Send a held fragment first; while the MAC has no room nothing else happens. -/
def transmit (s : Station) : Outcome Station :=
  match s.layer.heldOut with
  | none => s.flushLookup.andThen advance
  | some frame =>
    match flush (some frame) s.link.outbound with
    | (false, _, _) => .idle s
    | (true, heldOut, outbound) =>
      ((Outcome.moved { s with
          layer := { s.layer with heldOut }
          link := { s.link with outbound } }).andThen flushLookup).andThen advance

/-! ## §5. Reception. -/

/-- Take the next received frame. -/
def receiveNext (s : Station) : Outcome Station :=
  match s.link.inbound.take with
  | none => .idle s
  | some (frame, inbound) =>
    let s := { s with link := { s.link with inbound } }
    match s.layer.accept s.localIp frame.payload with
    | (layer, none, log) => .moved { s with layer } log
    | (layer, some packet, log) =>
      let (heldIn, inbox) := sendOrHold packet layer.crossbar.inbox
      let stats := { layer.stats with rxPackets := layer.stats.rxPackets + 1 }
      .moved { s with
        layer := { layer with heldIn, stats, crossbar := { layer.crossbar with inbox } } } log

/-- Pass on a held datagram first; while the crossbar has no room nothing else is taken. -/
def receive (s : Station) : Outcome Station :=
  match s.layer.heldIn with
  | none => s.receiveNext
  | some packet =>
    match flush (some packet) s.layer.crossbar.inbox with
    | (false, _, _) => .idle s
    | (true, heldIn, inbox) =>
      (Outcome.moved { s with
        layer := { s.layer with heldIn, crossbar := { s.layer.crossbar with inbox } } }).andThen
        receiveNext

/-! ## §6. Steps. -/

/-- One step of the crossbar, of the sender and of the receiver. -/
def step (s : Station) : Outcome Station :=
  -- the flag is about one step only
  let l := { s.layer with unreachable := false }
  (((l.crossbar.step.map fun crossbar => { s with layer := { l with crossbar } }).andThen
    transmit).andThen receive)

end Station
end NetBoard.Ip
