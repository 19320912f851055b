/-
  NetBoard.Streamer
  ─────────────────
  **A BYTE STREAM OVER UDP.**

  A streamer turns a UDP port into a pair of byte queues.  The payloads of
  accepted datagrams are queued for the application; bytes of the application
  leave as one datagram when enough of them are there.  In loopback the
  received bytes are sent back.

  Main definitions:

      Station.receive   — the backlog, then one datagram
      Streamer.loop     — received bytes to the sending queue
      Station.transmit  — one datagram of all bytes that wait to be sent
      Station.step      — these parts
-/
import NetBoard.Udp.Packet

namespace NetBoard

/-! ## §1. States. -/

/-- What a streamer is asked to be. -/
structure Streamer.Parameters where
  /-- The other station; without one datagrams of all are accepted and none is sent. -/
  remote : Option Ipv4 := none
  port : UInt16 := 6000
  rxDepth : Nat := 64
  txDepth : Nat := 64
  /-- The fewest bytes of a datagram. -/
  sendLevel : Nat := 1
  /-- Are received bytes sent back? -/
  loopback : Bool := false
  deriving Repr, DecidableEq, Inhabited

/-- What a streamer has handled. -/
structure Streamer.Stats where
  rxDatagrams : Nat := 0
  rxBytes : Nat := 0
  rxFiltered : Nat := 0
  txDatagrams : Nat := 0
  txBytes : Nat := 0
  deriving Repr, DecidableEq, Inhabited

/-- The streamer. -/
structure Streamer where
  port : UInt16
  /-- The lanes of its port. -/
  width : Nat
  remote : Option Ipv4
  sendLevel : Nat
  loopback : Bool
  /-- Bytes to be sent. -/
  txQueue : Pipe UInt8
  /-- Received bytes. -/
  rxQueue : Pipe UInt8
  /-- The bytes of the latest datagram for which the queue had no room. -/
  backlog : Bytes := []
  /-- In loopback, a received byte for which the sending queue had no room. -/
  heldLoop : Option UInt8 := none
  /-- A datagram for which the port had no room. -/
  heldOut : Option Udp.UserPacket := none
  stats : Streamer.Stats := {}
  deriving Repr, DecidableEq, Inhabited

/-- The streamer with its port of the UDP layer. -/
structure Streamer.Station where
  streamer : Streamer
  link : Link Udp.UserPacket
  deriving Repr, DecidableEq, Inhabited

namespace Streamer

/-- The name under which a streamer logs. -/
def source : String := "streamer"

/-- The parameters, if they fit together. -/
def Parameters.check (p : Parameters) : Except Fault Unit :=
  if p.rxDepth = 0 ∨ p.txDepth = 0 then .error (.config "streamer FIFOs cannot be empty")
  else if Udp.maxPayloadLength < p.txDepth then
    .error (.config s!"streamer TX FIFO of {p.txDepth} bytes exceeds the largest datagram")
  else if p.sendLevel = 0 ∨ p.txDepth < p.sendLevel then
    .error (.config s!"streamer send level must be within 1..={p.txDepth}")
  else if p.loopback ∧ p.remote = none then
    .error (.config "streamer loopback needs a remote host")
  else .ok ()

/-- A streamer with empty queues on a port of `width` lanes. -/
def make? (width : Nat) (p : Parameters) : Except Fault (Streamer × List Log.Line) := do
  p.check
  let remote := (p.remote.map Ipv4.text).getD "any (receive only)"
  return ({
      port := p.port, width, remote := p.remote, sendLevel := p.sendLevel, loopback := p.loopback
      txQueue := .make p.txDepth
      rxQueue := .make p.rxDepth },
    [⟨Log.medium, source, s!"streaming on port {p.port}, remote {remote}"⟩])

/-! ## §2. The application. -/

/-- Does the application have the received bytes?  Not in loopback. -/
def isReadable (s : Streamer) : Bool := !s.loopback

/-- May the application send bytes?  Not in loopback, nor without another station. -/
def isWritable (s : Streamer) : Bool := !s.loopback && s.remote.isSome

/-- The application writes bytes until one is refused: how many were accepted. -/
def write (s : Streamer) (bs : Bytes) : Streamer × Nat :=
  let (n, txQueue, _) := s.txQueue.offerMany bs
  ({ s with txQueue }, n)

/-- The application reads at most `n` bytes. -/
def read (s : Streamer) (n : Nat) : Streamer × Bytes :=
  let (bs, rxQueue) := s.rxQueue.takeMany n
  ({ s with rxQueue }, bs)

/-! ## §3. Loopback. -/

/-- Move received bytes to the sending queue while it has room.  One more byte
is taken from the received ones and held until there is room again. -/
def loop (s : Streamer) : Outcome Streamer :=
  -- what is refused stays in order: its first byte is held, the others are put back
  let (n, txQueue, left) := s.txQueue.offerMany (s.heldLoop.toList ++ s.rxQueue.items)
  { state := { s with
      txQueue, heldLoop := left.head?, rxQueue := { s.rxQueue with items := left.tail } }
    progress := decide (0 < n) }

/-- Loop if the streamer is to. -/
def loopIfAsked (s : Streamer) : Outcome Streamer := if s.loopback then s.loop else .idle s

/-! ## §4. Reception. -/

/-- Queue the backlog as far as there is room. -/
def queueBacklog (s : Streamer) : Outcome Streamer :=
  let (n, rxQueue, backlog) := s.rxQueue.offerMany s.backlog
  { state := { s with rxQueue, backlog }, progress := decide (0 < n) }

/-- Is the datagram meant for this streamer? -/
def isAddressed (s : Streamer) (p : Udp.UserPacket) : Bool :=
  p.dstPort == s.port && s.remote.all (· == p.ip)

/-- Accept a datagram, or count it as filtered. -/
def accept (s : Streamer) (p : Udp.UserPacket) : Outcome Streamer :=
  if s.isAddressed p then
    let bs := p.bytes s.width
    let stats := { s.stats with
      rxDatagrams := s.stats.rxDatagrams + 1, rxBytes := s.stats.rxBytes + bs.length }
    .moved { s with stats, backlog := s.backlog ++ bs }
  else
    let stats := { s.stats with rxFiltered := s.stats.rxFiltered + 1 }
    .moved { s with stats }
      [⟨Log.high, source,
        s!"ignoring datagram from {p.ip.text}:{p.srcPort} to port {p.dstPort}"⟩]

namespace Station

/-- Take the next datagram. -/
def receiveNext (s : Station) : Outcome Station :=
  match s.link.inbound.take with
  | none => .idle s
  | some (packet, inbound) =>
    (s.streamer.accept packet).map fun streamer => { streamer, link := { s.link with inbound } }

/-- Queue the backlog; a datagram is taken only when nothing of it is left. -/
def receive (s : Station) : Outcome Station :=
  let o := s.streamer.queueBacklog.map fun streamer => { s with streamer }
  if o.state.streamer.backlog.isEmpty then o.andThen receiveNext else o

/-! ## §5. Transmission. -/

/-- Send all waiting bytes to the other station, if they are enough. -/
def transmitNext (s : Station) : Outcome Station :=
  let t := s.streamer
  match t.remote with
  | none => .idle s
  | some ip =>
    let payload := t.txQueue.items
    -- all that waits leaves at once, so a datagram never exceeds the queue
    if payload.length < t.sendLevel then .idle s
    else
      let packet := Udp.UserPacket.ofBytes ip t.port t.port payload t.width
      let (heldOut, outbound) := sendOrHold packet s.link.outbound
      let stats := { t.stats with
        txDatagrams := t.stats.txDatagrams + 1, txBytes := t.stats.txBytes + payload.length }
      .moved { streamer := { t with heldOut, stats, txQueue := { t.txQueue with items := [] } }
               link := { s.link with outbound } }
        [⟨Log.extensive, source, s!"sending {payload.length} bytes to {ip.text}"⟩]

/-- Send a held datagram, or a new one. -/
def transmit (s : Station) : Outcome Station :=
  match s.streamer.heldOut with
  | none => s.transmitNext
  | some packet =>
    let (left, heldOut, outbound) := flush (some packet) s.link.outbound
    { state := { streamer := { s.streamer with heldOut }, link := { s.link with outbound } }
      progress := left }

/-! ## §6. Steps. -/

/-- Receive, loop and transmit. -/
def step (s : Station) : Outcome Station :=
  (s.receive.andThen fun s =>
    s.streamer.loopIfAsked.map fun streamer => { s with streamer }).andThen transmit

end Station
end Streamer
end NetBoard
