/-
  NetBoard.Dhcp.Client
  ────────────────────
  **THE HOST CONFIGURATION CLIENT.**

  The client obtains the address of the board: it discovers servers, takes
  the first offer, requests it, and binds it when it is acknowledged.  An
  exchange that takes too long is given up and tried again later.

  Main definitions:

      Station.advance  — one transition of the exchange
      Station.step     — send what is held, watch the time, make one transition
-/
import NetBoard.Dhcp.Message

namespace NetBoard.Dhcp

/-! ## §1. States. -/

/-- Where the client stands in an exchange. -/
inductive Phase where
  | idle
  | sendDiscover
  | receiveOffer
  | sendRequest
  | receiveAck
  deriving Repr, DecidableEq, Inhabited

/-- The phase in log lines. -/
def Phase.name : Phase → String
  | idle => "Idle"
  | sendDiscover => "SendDiscover"
  | receiveOffer => "ReceiveOffer"
  | sendRequest => "SendRequest"
  | receiveAck => "ReceiveAck"

/-- What the client was given. -/
structure Lease where
  ip : Ipv4
  server : Ipv4
  subnetMask : Ipv4
  gateway : Ipv4
  /-- Seconds; nothing happens when they are over. -/
  leaseTime : Nat
  deriving Repr, DecidableEq, Inhabited

/-- What the client has handled. -/
structure Stats where
  discovers : Nat := 0
  requests : Nat := 0
  offers : Nat := 0
  acks : Nat := 0
  dropped : Nat := 0
  /-- Replies without room for a message type. -/
  runts : Nat := 0
  timeouts : Nat := 0
  deriving Repr, DecidableEq, Inhabited

/-- The client. -/
structure Client where
  mac : MacAddress
  /-- The lanes of its port. -/
  width : Nat
  /-- The longest time of an exchange. -/
  timeout : Nat
  /-- The time between two exchanges while nothing is leased. -/
  retry : Nat
  phase : Phase := .idle
  /-- The number of the exchange. -/
  xid : UInt32 := 0
  /-- When the exchange began. -/
  started : Option Nat := none
  /-- Since when there is no exchange; none before the first. -/
  idleSince : Option Nat := none
  /-- Is a new exchange wanted at once? -/
  renewing : Bool := false
  offer : Option Reply := none
  lease : Option Lease := none
  /-- A message for which the port had no room. -/
  heldOut : Option Udp.UserPacket := none
  stats : Stats := {}
  deriving Repr, DecidableEq, Inhabited

/-- The client with its port and the address it sets. -/
structure Station where
  client : Client
  link : Link Udp.UserPacket
  /-- The address of the board. -/
  localIp : Ipv4
  deriving Repr, DecidableEq, Inhabited

namespace Client

/-- The name under which the client logs. -/
def source : String := "dhcp"

/-- The lanes of the port that the client needs. -/
def portWidth : Nat := 4

/-- A client that has not begun; its port must have the right width. -/
def make? (mac : MacAddress) (width timeout retry : Nat) : Except Fault Client :=
  if width = portWidth then .ok { mac, width, timeout, retry }
  else .error (.config s!"dhcp client needs a 32 bits udp port, got {width * 8} bits")

/-- Ask for a new exchange, bound or not. -/
def renew (c : Client) : Client := { c with renewing := true }

/-- Enter a phase. -/
def enter (c : Client) (phase : Phase) : Client × List Log.Line :=
  ({ c with phase }, [⟨Log.extensive, source, s!"{c.phase.name} -> {phase.name}"⟩])

/-- The datagram of a discovery, or of a request for what was offered. -/
def compose (c : Client) (accepted : Option Reply) : Udp.UserPacket :=
  .ofBytes ⟨255, 255, 255, 255⟩ clientPort serverPort (solicitation c.mac c.xid accepted) c.width

/-- Has the exchange in progress taken too long? -/
def isOverdue (c : Client) (now : Nat) : Bool :=
  c.phase != .idle && c.started.any fun since => decide (c.timeout ≤ now - since)

/-- Is it time for an exchange?  At first, when asked, and while nothing is leased. -/
def wantsExchange (c : Client) (now : Nat) : Bool :=
  c.renewing ||
    match c.idleSince with
    | none => true
    | some since => c.lease.isNone && decide (c.retry ≤ now - since)

end Client

namespace Station

/-! ## §2. Parts of a transition. -/

/-- Send a message, or hold it. -/
def send (s : Station) (packet : Udp.UserPacket) : Station :=
  let (heldOut, outbound) := sendOrHold packet s.link.outbound
  { s with client := { s.client with heldOut }, link := { s.link with outbound } }

/-- Drop all that arrived outside an exchange. -/
def drain (s : Station) : Outcome Station :=
  let n := s.link.inbound.items.length
  let (_, inbound) := s.link.inbound.takeMany n
  let stats := { s.client.stats with dropped := s.client.stats.dropped + n }
  { state := { s with client := { s.client with stats }, link := { s.link with inbound } }
    progress := decide (0 < n) }

/-- Take the next message: the reply in it if it is of the wanted kind; any
other is dropped. -/
def hear (s : Station) (kind : Kind) : Outcome (Station × Option Reply) :=
  match s.link.inbound.take with
  | none => .idle (s, none)
  | some (packet, inbound) =>
    let c := s.client
    let runt := if packet.length < minReplyLength then 1 else 0
    let stats := { c.stats with runts := c.stats.runts + runt }
    let s := { s with link := { s.link with inbound }, client := { c with stats } }
    match (Reply.read? c.mac c.xid c.width packet).filter (·.kind == kind) with
    | some reply => .moved (s, some reply)
    | none =>
      let stats := { stats with dropped := stats.dropped + 1 }
      .moved ({ s with client := { c with stats } }, none)
        [⟨Log.medium, Client.source, s!"unexpected message from {packet.ip.text} dropped"⟩]

/-- Bind what was offered. -/
def bind (s : Station) (now : Nat) (offer ack : Reply) : Station × List Log.Line :=
  let c := s.client
  let lease : Lease :=
    -- the address is the offered one, whatever the acknowledgement names
    { ip := offer.ip, server := offer.server, subnetMask := ack.subnetMask
      gateway := ack.gateway, leaseTime := ack.leaseTime }
  let stats := { c.stats with acks := c.stats.acks + 1 }
  ({ s with
      client := { c with lease := some lease, idleSince := some now, stats }
      localIp := lease.ip },
    [⟨Log.info, Client.source,
      s!"bound to {lease.ip.text}, lease of {lease.leaseTime} seconds"⟩])

/-! ## §3. Transitions. -/

/-- What the current phase does, and the phase that follows. -/
def act (now : Nat) (s : Station) : Outcome (Station × Phase) :=
  match s.client.phase with
  | .idle =>
    s.drain.map fun s =>
      let c := s.client
      if c.wantsExchange now then
        -- a fresh number, so that late replies of earlier exchanges are refused
        ({ s with client := { c with renewing := false, xid := c.xid + 1, started := some now } },
          .sendDiscover)
      else (s, .idle)
  | .sendDiscover =>
    let s := s.send (s.client.compose none)
    let stats := { s.client.stats with discovers := s.client.stats.discovers + 1 }
    .idle ({ s with client := { s.client with stats } }, .receiveOffer)
  | .receiveOffer =>
    let o := s.hear .offer
    match o.state with
    | (s, none) => o.map fun _ => (s, .receiveOffer)
    | (s, some offer) =>
      let stats := { s.client.stats with offers := s.client.stats.offers + 1 }
      (o.map fun _ => ({ s with client := { s.client with offer := some offer, stats } },
        Phase.sendRequest)).andThen fun next =>
        { state := next
          log := [⟨Log.high, Client.source,
            s!"offer of {offer.ip.text} from {offer.server.text}"⟩] }
  | .sendRequest =>
    let s := s.send (s.client.compose s.client.offer)
    let stats := { s.client.stats with requests := s.client.stats.requests + 1 }
    .idle ({ s with client := { s.client with stats } }, .receiveAck)
  | .receiveAck =>
    let o := s.hear .ack
    match o.state with
    | (s, some ack) =>
      match s.client.offer with
      | some offer =>
        let (s, log) := s.bind now offer ack
        (o.map fun _ => (s, Phase.idle)).andThen fun next => { state := next, log }
      -- the phase is only entered with an offer at hand
      | none => o.map fun _ => (s, .receiveAck)
    | (s, none) => o.map fun _ => (s, .receiveAck)

/-- Act, and enter the phase that follows. -/
def advance (now : Nat) (s : Station) : Outcome Station :=
  let o := s.act now
  let (next, phase) := o.state
  -- a change of phase is progress even if nothing was sent or taken
  if phase = next.client.phase then o.map (·.1)
  else
    let (client, log) := next.client.enter phase
    { state := { next with client }, progress := true, log := o.log ++ log }

/-- Give the exchange up. -/
def giveUp (now : Nat) (s : Station) : Outcome Station :=
  let c := s.client
  let name := Text.hexTagged 8 c.xid.toNat
  let stats := { c.stats with timeouts := c.stats.timeouts + 1 }
  let (client, log) := { c with stats, lease := none, idleSince := some now }.enter .idle
  .moved { s with client }
    ([⟨Log.medium, Client.source, s!"transaction {name} timed out"⟩] ++ log)

/-- Watch the time, then act. -/
def proceed (now : Nat) (s : Station) : Outcome Station :=
  if s.client.isOverdue now then s.giveUp now else s.advance now

/-! ## §4. Steps. -/

/-- Send a held message first; while the port has no room nothing else happens,
not even the watch over the time. -/
def step (now : Nat) (s : Station) : Outcome Station :=
  match s.client.heldOut with
  | none => s.proceed now
  | some packet =>
    match flush (some packet) s.link.outbound with
    | (false, _, _) => .idle s
    | (true, heldOut, outbound) =>
      (Outcome.moved { s with
        client := { s.client with heldOut }
        link := { s.link with outbound } }).andThen (proceed now)

end Station
end NetBoard.Dhcp
