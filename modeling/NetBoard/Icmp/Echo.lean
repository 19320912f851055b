/-
  NetBoard.Icmp.Echo
  ──────────────────
  **THE ECHO SERVICE.**

  Echo requests are kept in a buffer and sent back as replies.  Only the type
  and the checksum of a message change, so the checksum is derived from that
  of the request.  While the buffer is full, datagrams wait in the IP layer.

  Main definitions:

      Station.receive  — one datagram into the buffer
      Station.reply    — one request of the buffer sent back
      Station.step     — both
-/
import NetBoard.Ip.Packet

namespace NetBoard.Icmp

/-! ## §1. Messages. -/

/-- The IP protocol of control messages. -/
def protocol : UInt8 := 1

/-- The type of an echo reply. -/
def echoReply : Nat := 0

/-- The type of an echo request. -/
def echoRequest : Nat := 8

/-- The header of a control message. -/
def header : Header where
  fields :=
    [⟨"msgtype", 0, 0, 8⟩, ⟨"code", 1, 0, 8⟩, ⟨"checksum", 2, 0, 16⟩, ⟨"quench", 4, 0, 32⟩]
  length := 8

/-! ## §2. States. -/

/-- A buffered request. -/
structure Request where
  /-- Who asked. -/
  ip : Ipv4
  fields : Fields
  payload : Bytes
  deriving Repr, DecidableEq, Inhabited

/-- The header of the reply: type and checksum change. -/
def Request.replyFields (r : Request) : Fields :=
  let checksum := echoReplyChecksum (UInt16.ofNat (r.fields.get "checksum"))
  (r.fields.set "msgtype" echoReply).set "checksum" checksum.toNat

/-- What the service has handled. -/
structure Stats where
  echoRequests : Nat := 0
  echoReplies : Nat := 0
  ignored : Nat := 0
  deriving Repr, DecidableEq, Inhabited

/-- The echo service. -/
structure Echo where
  packetizer : Packetizer
  depacketizer : Depacketizer
  /-- The most requests in the buffer. -/
  depth : Nat
  /-- The requests to be answered, the oldest first. -/
  buffer : List Request := []
  /-- A reply for which the IP layer had no room. -/
  heldOut : Option Ip.Packet := none
  stats : Stats := {}
  deriving Repr, DecidableEq, Inhabited

/-- The service with its port of the IP layer. -/
structure Station where
  echo : Echo
  link : Link Ip.Packet
  deriving Repr, DecidableEq, Inhabited

/-- The name under which the service logs. -/
def source : String := "icmp"

/-- A service with an empty buffer, which holds at least one request. -/
def Echo.make (width depth : Nat) : Echo where
  packetizer := { header, width }
  depacketizer := { format := header, width }
  depth := max depth 1

namespace Station

/-! ## §3. Transmission. -/

/-- Answer the oldest request. -/
def replyNext (s : Station) : Outcome Station :=
  match s.echo.buffer with
  | [] => .idle s
  | request :: buffer =>
    let (packetizer, payload) := s.echo.packetizer.packetize request.replyFields request.payload
    let (heldOut, outbound) := sendOrHold ⟨request.ip, protocol, payload⟩ s.link.outbound
    let stats := { s.echo.stats with echoReplies := s.echo.stats.echoReplies + 1 }
    .moved { echo := { s.echo with packetizer, buffer, heldOut, stats }
             link := { s.link with outbound } }

/-- Send a held reply first; while the IP layer has no room nothing else is sent. -/
def reply (s : Station) : Outcome Station :=
  match s.echo.heldOut with
  | none => s.replyNext
  | some packet =>
    match flush (some packet) s.link.outbound with
    | (false, _, _) => .idle s
    | (true, heldOut, outbound) =>
      (Outcome.moved { echo := { s.echo with heldOut }, link := { s.link with outbound } }).andThen
        replyNext

/-! ## §4. Reception. -/

/-- Buffer a request; every other message is ignored. -/
def accept (s : Station) (packet : Ip.Packet) : Outcome Station :=
  let (depacketizer, message) := s.echo.depacketizer.depacketize packet.payload
  let echo := { s.echo with depacketizer }
  match message.filter fun (fields, _) => fields.get "msgtype" == echoRequest with
  | some (fields, payload) =>
    let request : Request := ⟨packet.ip, fields, payload⟩
    let stats := { echo.stats with echoRequests := echo.stats.echoRequests + 1 }
    .moved { s with echo := { echo with buffer := echo.buffer ++ [request], stats } }
      [⟨Log.high, source, s!"echo request from {packet.ip.text}"⟩]
  | none =>
    let stats := { echo.stats with ignored := echo.stats.ignored + 1 }
    .moved { s with echo := { echo with stats } }
      [⟨Log.medium, source, s!"non echo request message from {packet.ip.text} ignored"⟩]

/-- Take the next datagram, if the buffer has room. -/
def receive (s : Station) : Outcome Station :=
  if s.echo.depth ≤ s.echo.buffer.length then .idle s
  else
    match s.link.inbound.take with
    | none => .idle s
    | some (packet, inbound) => { s with link := { s.link with inbound } }.accept packet

/-! ## §5. Steps. -/

/-- Send one reply and receive one datagram. -/
def step (s : Station) : Outcome Station := s.reply.andThen receive

end Station
end NetBoard.Icmp
