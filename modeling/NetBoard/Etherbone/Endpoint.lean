/-
  NetBoard.Etherbone.Endpoint
  ───────────────────────────
  **BUS ACCESSES OVER UDP.**

  An endpoint lets other stations read and write the memory on its bus.  It
  answers probes, runs the record of a packet on the bus, and sends the
  results of the reads back to the station that asked.  The next packet is
  taken only when the record before it has been run.

  Main definitions:

      Station.receive   — take a packet: a probe or a record
      Endpoint.feed     — words of the record to accesses
      Endpoint.serve    — accesses to the bus, results to replies
      Station.transmit  — send a reply
      Station.step      — these parts, the last first
-/
import NetBoard.Etherbone.Record
import NetBoard.Udp.Packet

namespace NetBoard.Etherbone

/-! ## §1. States. -/

/-- The number at the head of every packet. -/
def magic : Nat := 0x4e6f

/-- The lanes of the bus and of the port. -/
def busWidth : Nat := 4

/-- A record whose words are still being fed to the receiver. -/
structure Inbound where
  shape : Shape
  words : List UInt32
  deriving Repr, DecidableEq, Inhabited

/-- What an endpoint has handled. -/
structure Stats where
  probes : Nat := 0
  records : Nat := 0
  writes : Nat := 0
  reads : Nat := 0
  replies : Nat := 0
  badMagic : Nat := 0
  malformed : Nat := 0
  deriving Repr, DecidableEq, Inhabited

/-- The endpoint. -/
structure Endpoint where
  port : UInt16
  bus : Sram
  /-- The most accesses that wait for the bus, and the most replies that wait to be sent. -/
  bufferDepth : Nat
  packetPacketizer : Packetizer := { header := packetHeader, width := busWidth }
  packetDepacketizer : Depacketizer := { format := packetHeader, width := busWidth }
  recordPacketizer : Packetizer := { header := recordHeader, width := busWidth }
  recordDepacketizer : Depacketizer := { format := recordHeader, width := busWidth }
  receiver : Receiver := .idle
  inbound : Option Inbound := none
  /-- The accesses that wait for the bus. -/
  accesses : List Access := []
  /-- The results of the reads of a record that is not finished. -/
  results : List Access := []
  /-- The replies that wait to be sent. -/
  replies : List Udp.UserPacket := []
  /-- The station whose packet was taken last. -/
  requester : Ipv4 := .unspecified
  /-- A reply for which the port had no room. -/
  heldOut : Option Udp.UserPacket := none
  stats : Stats := {}
  deriving Repr, DecidableEq, Inhabited

/-- The endpoint with its port of the UDP layer. -/
structure Station where
  endpoint : Endpoint
  link : Link Udp.UserPacket
  deriving Repr, DecidableEq, Inhabited

/-- The name under which an endpoint logs. -/
def source : String := "etherbone"

namespace Endpoint

/-- An endpoint on a port of `width` lanes, which must fit the bus. -/
def make? (port : UInt16) (width : Nat) (bus : Sram) (bufferDepth : Nat) : Except Fault Endpoint :=
  if width = busWidth then .ok { port, bus, bufferDepth := max bufferDepth 1 }
  else .error (.config
    s!"etherbone needs a {busWidth * 8} bits UDP port, got {width * 8} bits")

/-- Is there room for another reply? -/
def hasReplyRoom (e : Endpoint) : Bool := e.replies.length < e.bufferDepth

/-- Queue a packet for the requester. -/
def reply (e : Endpoint) (nr pr : Nat) (payload : Bytes) : Endpoint :=
  let values := ((((((({} : Fields).set "magic" magic).set "version" 1).set "nr" nr).set
    "pr" pr).set "pf" 0).set "addr_size" 4).set "port_size" 4
  let (packetPacketizer, bs) := e.packetPacketizer.packetize values payload
  { e with packetPacketizer
           replies := e.replies ++ [.ofBytes e.requester e.port e.port bs busWidth] }

/-! ## §2. The bus. -/

/-- Run one access; the result of the last read of a record completes the reply. -/
def serveOne (e : Endpoint) (a : Access) : Endpoint :=
  let stats :=
    if a.isWrite then { e.stats with writes := e.stats.writes + 1 }
    else { e.stats with reads := e.stats.reads + 1 }
  let (bus, result) := a.run e.bus
  let e := { e with bus, stats }
  match result with
  | none => e
  | some result =>
    let results := e.results ++ [result]
    if result.last then
      let (recordPacketizer, record) := answer e.recordPacketizer results
      { e with recordPacketizer, results := [] }.reply 0 0 record
    else { e with results }

/-- Run the waiting accesses while there is room for a reply. -/
def serveAll (e : Endpoint) : List Access → Endpoint
  | [] => { e with accesses := [] }
  | a :: rest =>
    -- any read may complete a reply, so room is asked for before every access
    if e.hasReplyRoom then serveAll (e.serveOne a) rest else { e with accesses := a :: rest }

/-- Run the waiting accesses. -/
def serve (e : Endpoint) : Outcome Endpoint :=
  { state := e.serveAll e.accesses, progress := e.hasReplyRoom && !e.accesses.isEmpty }

/-! ## §3. The receiver. -/

/-- Feed one word of a record. -/
def feedOne (e : Endpoint) (shape : Shape) (word : UInt32) : Endpoint × List Log.Line :=
  let (receiver, access) := e.receiver.next shape word
  let log :=
    if receiver = e.receiver then []
    else [⟨Log.extensive, source,
      s!"record receiver {e.receiver.text} -> {receiver.text}"⟩]
  ({ e with receiver, accesses := e.accesses ++ access.toList }, log)

/-- Feed words while there is room for accesses; a record without words left is done. -/
def feedAll (e : Endpoint) (shape : Shape) (words : List UInt32) : Outcome Endpoint :=
  match words with
  | [] => .idle { e with inbound := none }
  | word :: rest =>
    -- most words give an access, so room is asked for before every word
    if e.accesses.length < e.bufferDepth then
      let (e, log) := e.feedOne shape word
      (Outcome.moved e log).andThen fun e => e.feedAll shape rest
    else .idle { e with inbound := some ⟨shape, word :: rest⟩ }

/-- Feed the words of the record that was taken. -/
def feed (e : Endpoint) : Outcome Endpoint :=
  match e.inbound with
  | none => .idle e
  | some record => e.feedAll record.shape record.words

/-! ## §4. Packets. -/

/-- The record that is the whole of a payload. -/
def readRecord (e : Endpoint) (payload : Bytes) : Endpoint × Option Inbound :=
  let (recordDepacketizer, record) := e.recordDepacketizer.depacketize payload
  ({ e with recordDepacketizer },
    record.bind fun (values, data) =>
      let shape := Shape.ofFields values
      if data.length = 4 * shape.words then some ⟨shape, octetWords data⟩ else none)

/-- Handle a packet with the right magic number. -/
def handle (e : Endpoint) (values : Fields) (payload : Bytes) : Outcome Endpoint :=
  if values.get "pf" = 1 then
    let stats := { e.stats with probes := e.stats.probes + 1 }
    .moved ({ e with stats }.reply (values.get "nr") 1 payload)
      [⟨Log.high, source, s!"probe from {e.requester.text}"⟩]
  else
    match e.readRecord payload with
    | (e, some record) =>
      let stats := { e.stats with records := e.stats.records + 1 }
      let shape := record.shape
      -- the words fit the header, so the receiver starts afresh and ends idle
      .moved { e with stats, receiver := .idle, inbound := some record }
        [⟨Log.high, source,
          s!"record from {e.requester.text}, {shape.writes} writes {shape.reads} reads"⟩]
    | (e, none) =>
      let stats := { e.stats with malformed := e.stats.malformed + 1 }
      .moved { e with stats }
        [⟨Log.medium, source,
          s!"packet from {e.requester.text} dropped, not a single well formed record"⟩]

/-- Check a packet, and handle it. -/
def accept (e : Endpoint) (packet : Udp.UserPacket) : Outcome Endpoint :=
  let bs := packet.bytes busWidth
  let (packetDepacketizer, parts) := e.packetDepacketizer.depacketize bs
  let e := { e with packetDepacketizer }
  match parts with
  | none =>
    let stats := { e.stats with malformed := e.stats.malformed + 1 }
    .moved { e with stats }
      [⟨Log.medium, source,
        s!"packet from {packet.ip.text} dropped, {bs.length} bytes is shorter than the header"⟩]
  | some (values, payload) =>
    -- replies go to the station whose packet is being handled
    if values.get "magic" = magic then { e with requester := packet.ip }.handle values payload
    else
      let stats := { e.stats with badMagic := e.stats.badMagic + 1 }
      .moved { e with stats }
        [⟨Log.medium, source, s!"packet from {packet.ip.text} dropped, bad magic"⟩]

/-- May the next packet be taken?  Only when the record before it has been run
and its reply has room. -/
def isReady (e : Endpoint) : Bool := e.inbound.isNone && e.accesses.isEmpty && e.hasReplyRoom

end Endpoint

namespace Station

/-! ## §5. The port. -/

/-- Send the oldest reply. -/
def transmitNext (s : Station) : Outcome Station :=
  match s.endpoint.replies with
  | [] => .idle s
  | packet :: replies =>
    let (heldOut, outbound) := sendOrHold packet s.link.outbound
    let stats := { s.endpoint.stats with replies := s.endpoint.stats.replies + 1 }
    .moved { endpoint := { s.endpoint with replies, heldOut, stats }
             link := { s.link with outbound } }

/-- Send a held reply first; while the port has no room nothing else is sent. -/
def transmit (s : Station) : Outcome Station :=
  match s.endpoint.heldOut with
  | none => s.transmitNext
  | some packet =>
    match flush (some packet) s.link.outbound with
    | (false, _, _) => .idle s
    | (true, heldOut, outbound) =>
      (Outcome.moved { endpoint := { s.endpoint with heldOut }
                       link := { s.link with outbound } }).andThen transmitNext

/-- Take the next packet, if the endpoint is ready for it. -/
def receive (s : Station) : Outcome Station :=
  if s.endpoint.isReady then
    match s.link.inbound.take with
    | none => .idle s
    | some (packet, inbound) =>
      (s.endpoint.accept packet).map fun endpoint =>
        { endpoint, link := { s.link with inbound } }
  else .idle s

/-- The same step on the endpoint alone. -/
def inside (f : Endpoint → Outcome Endpoint) (s : Station) : Outcome Station :=
  (f s.endpoint).map fun endpoint => { s with endpoint }

/-- Send a reply, run accesses, feed the receiver, take a packet. -/
def step (s : Station) : Outcome Station :=
  ((s.transmit.andThen (inside Endpoint.serve)).andThen (inside Endpoint.feed)).andThen receive

end Station
end NetBoard.Etherbone
