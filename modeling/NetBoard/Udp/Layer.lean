/-
  NetBoard.Udp.Layer
  ──────────────────
  **THE UDP LAYER.**

  Datagrams are given their header on the way out, checked on the way in, and
  handed to the user of their destination port.

  Main definitions:

      Layer.openPort    — a new user's port
      Station.transmit  — one datagram to the IP layer
      Station.receive   — one datagram from the IP layer
      Station.step      — bridges, crossbar, transmission and reception
-/
import NetBoard.Udp.Bridge

namespace NetBoard.Udp

/-! ## §1. States. -/

/-- What the layer has handled. -/
structure Stats where
  rxDatagrams : Nat := 0
  txDatagrams : Nat := 0
  invalid : Nat := 0
  /-- Datagrams too long for an IP datagram. -/
  txOversize : Nat := 0
  deriving Repr, DecidableEq, Inhabited

/-- The UDP layer. -/
structure Layer where
  width : Nat
  /-- The depth of every pipe. -/
  depth : Nat
  crossbar : Crossbar Packet
  /-- The users' ports in the order they were opened. -/
  bridges : List Bridge := []
  packetizer : Packetizer
  depacketizer : Depacketizer
  /-- A datagram for which the IP layer had no room. -/
  heldOut : Option Ip.Packet := none
  /-- A datagram for which the crossbar had no room. -/
  heldIn : Option Packet := none
  stats : Stats := {}
  deriving Repr, DecidableEq, Inhabited

/-- The layer with its port of the IP layer. -/
structure Station where
  layer : Layer
  link : Link Ip.Packet
  deriving Repr, DecidableEq, Inhabited

namespace Layer

/-- The name under which the layer logs. -/
def source : String := "udp"

/-- A layer without users. -/
def make (width depth : Nat) : Layer where
  width := width
  depth := depth
  crossbar := .make .udpPort depth
  packetizer := { header, width }
  depacketizer := { format := header, width }

/-! ## §2. Users. -/

/-- The result of opening a port: the layer after it, the fault if it was
refused, and the log. -/
structure Opening where
  layer : Layer
  fault : Option Fault := none
  log : List Log.Line := []
  deriving Repr, DecidableEq, Inhabited

/-- Open a user's port of `width` lanes.  The user's width is checked first,
then the port is registered, and only then the width of the layer itself is
looked at: if it is unsupported the port stays registered without a user. -/
def openPort (l : Layer) (port : UInt16) (width : Nat) : Opening :=
  match checkWidth width with
  | .error fault => { layer := l, fault }
  | .ok width =>
    match l.crossbar.register port with
    | .error fault => { layer := l, fault }
    | .ok (crossbar, log) =>
      -- the user's width is sound here, so only that of the layer can fail
      match Stride.make? l.width width with
      | .error fault => { layer := { l with crossbar := crossbar.abandon port }, fault, log }
      | .ok stride =>
        let bridge : Bridge := { port, stride, user := .make l.depth }
        { layer := { l with crossbar, bridges := l.bridges ++ [bridge] }
          log := log ++ [⟨Log.high, source, s!"port {port} opened, {width * 8} bits wide"⟩] }

/-- The ports that are open, with their widths, in the order they were opened. -/
def widths (l : Layer) : List (UInt16 × Nat) := l.bridges.map fun b => (b.port, b.stride.target)

/-- The pipes of the user of a port. -/
def user? (l : Layer) (port : UInt16) : Option (Link UserPacket) :=
  (l.bridges.find? (·.port == port)).map (·.user)

/-- Replace the pipes of the user of a port. -/
def setUser (l : Layer) (port : UInt16) (user : Link UserPacket) : Layer :=
  { l with bridges := l.bridges.map fun b => if b.port == port then { b with user } else b }

/-- The user of a port goes. -/
def abandon (l : Layer) (port : UInt16) : Layer :=
  match l.user? port with
  | none => l
  | some user => l.setUser port user.abandon

/-- One step of every bridge, in order. -/
def stepBridges : List Bridge → Crossbar Packet → Outcome (List Bridge × Crossbar Packet)
  | [], xb => .idle ([], xb)
  | b :: rest, xb =>
    match xb.link? b.port with
    | none => (stepBridges rest xb).map fun (bs, xb) => (b :: bs, xb)
    | some link =>
      let o := Bridge.Station.step ⟨b, link⟩
      let next := stepBridges rest (xb.setLink b.port o.state.link)
      { state := (o.state.bridge :: next.state.1, next.state.2)
        progress := o.progress || next.progress
        log := o.log ++ next.log }

end Layer

namespace Station

/-! ## §3. Transmission. -/

/-- Send the next datagram of the crossbar. -/
def transmitNext (s : Station) : Outcome Station :=
  let l := s.layer
  match l.crossbar.outbox.take with
  | none => .idle s
  | some (packet, outbox) =>
    let l := { l with crossbar := { l.crossbar with outbox } }
    let size := packet.payload.length
    if maxPayloadLength < size then
      let stats := { l.stats with txOversize := l.stats.txOversize + 1 }
      .moved { s with layer := { l with stats } }
        [⟨Log.medium, Layer.source,
          s!"datagram of {size} bytes from port {packet.srcPort} is too large, dropped"⟩]
    else
      let (packetizer, payload) := l.packetizer.packetize packet.fields packet.payload
      let (heldOut, outbound) := sendOrHold ⟨packet.ip, protocol, payload⟩ s.link.outbound
      let stats := { l.stats with txDatagrams := l.stats.txDatagrams + 1 }
      .moved { layer := { l with packetizer, heldOut, stats }, link := { s.link with outbound } }

/-- Send a held datagram first; while the IP layer has no room nothing else is sent. -/
def transmit (s : Station) : Outcome Station :=
  match s.layer.heldOut with
  | none => s.transmitNext
  | some packet =>
    match flush (some packet) s.link.outbound with
    | (false, _, _) => .idle s
    | (true, heldOut, outbound) =>
      (Outcome.moved { layer := { s.layer with heldOut }
                       link := { s.link with outbound } }).andThen transmitNext

/-! ## §4. Reception. -/

/-- Check a received datagram and hand it to the crossbar. -/
def accept (s : Station) (packet : Ip.Packet) : Outcome Station :=
  let (depacketizer, datagram) := s.layer.depacketizer.depacketize packet.payload
  let l := { s.layer with depacketizer }
  let invalid := { l with stats := { l.stats with invalid := l.stats.invalid + 1 } }
  match datagram with
  | none => .moved { s with layer := invalid }
  | some (values, payload) =>
    match Packet.ofFields packet.ip values payload with
    | .error length =>
      .moved { s with layer := invalid }
        [⟨Log.medium, Layer.source, s!"rx datagram dropped, bad length {length}"⟩]
    | .ok datagram =>
      let (heldIn, inbox) := sendOrHold datagram l.crossbar.inbox
      let stats := { l.stats with rxDatagrams := l.stats.rxDatagrams + 1 }
      .moved { s with layer := { l with heldIn, stats, crossbar := { l.crossbar with inbox } } }

/-- Take the next datagram of the IP layer. -/
def receiveNext (s : Station) : Outcome Station :=
  match s.link.inbound.take with
  | none => .idle s
  | some (packet, inbound) => { s with link := { s.link with inbound } }.accept packet

/-- Pass on a held datagram first; while the crossbar has no room nothing else is taken. -/
def receive (s : Station) : Outcome Station :=
  match s.layer.heldIn with
  | none => s.receiveNext
  | some packet =>
    match flush (some packet) s.layer.crossbar.inbox with
    | (false, _, _) => .idle s
    | (true, heldIn, inbox) =>
      (Outcome.moved { s with
        layer := { s.layer with heldIn, crossbar := { s.layer.crossbar with inbox } } }).andThen
        receiveNext

/-! ## §5. Steps. -/

/-- One step of every bridge. -/
def bridge (s : Station) : Outcome Station :=
  (Layer.stepBridges s.layer.bridges s.layer.crossbar).map fun (bridges, crossbar) =>
    { s with layer := { s.layer with bridges, crossbar } }

/-- One step of the crossbar. -/
def exchange (s : Station) : Outcome Station :=
  s.layer.crossbar.step.map fun crossbar => { s with layer := { s.layer with crossbar } }

/-- One step of the bridges, of the crossbar, of transmission and of reception. -/
def step (s : Station) : Outcome Station :=
  ((s.bridge.andThen exchange).andThen transmit).andThen receive

end Station
end NetBoard.Udp
