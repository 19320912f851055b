/-
  NetBoard.Arp.Resolver
  ─────────────────────
  **THE RESOLVER.**

  A state machine that answers requests for the local address and resolves
  addresses for the IP layer.  One lookup is worked on at a time: from the
  cache, or by requests repeated until a reply comes or their number is used
  up.  Messages that arrive while the machine is not idle are lost.

  Main definitions:

      Resolver.hear   — check a received message
      Station.turn    — one transition of the machine
      Station.step    — send what is held, hear one message, make one transition
-/
import NetBoard.Arp.Cache
import NetBoard.Arp.Message

namespace NetBoard.Arp

/-! ## §1. States. -/

/-- How persistent a resolver is and how much it remembers. -/
structure Parameters where
  /-- The slots of the cache. -/
  entries : Nat := 1
  /-- The requests sent before a lookup fails. -/
  maxRequests : Nat := 8
  /-- The time between two requests. -/
  timeout : Nat := 100
  /-- The time a mapping is remembered. -/
  cacheTimeout : Option Nat := some 10000
  deriving Repr, DecidableEq, Inhabited

/-- What the machine does next. -/
inductive Phase where
  | idle
  /-- Tell this station the local address. -/
  | sendReply (ip : Ipv4) (mac : MacAddress)
  /-- Compare a reply with the outstanding request. -/
  | checkRequest (ip : Ipv4) (mac : MacAddress)
  /-- Remember the awaited mapping. -/
  | updateTable (ip : Ipv4) (mac : MacAddress)
  /-- Look the address up in the cache. -/
  | checkTable
  /-- Ask the segment. -/
  | sendRequest
  /-- Hand the answer to the asker. -/
  | presentResponse (answer : Answer)
  deriving Repr, DecidableEq, Inhabited

/-- The phase in log lines. -/
def Phase.text : Phase → String
  | idle => "Idle"
  | sendReply ip mac => Text.apply "SendReply" [Text.octets ip.octets, Text.octets mac.octets]
  | checkRequest ip mac =>
    Text.apply "CheckRequest" [Text.octets ip.octets, Text.octets mac.octets]
  | updateTable ip mac => Text.apply "UpdateTable" [Text.octets ip.octets, Text.octets mac.octets]
  | checkTable => "CheckTable"
  | sendRequest => "SendRequest"
  | presentResponse answer => Text.apply "PresentResponse" [answer.text]

/-- What a resolver has handled. -/
structure Stats where
  rxRequests : Nat := 0
  rxReplies : Nat := 0
  txRequests : Nat := 0
  txReplies : Nat := 0
  invalid : Nat := 0
  droppedBusy : Nat := 0
  resolved : Nat := 0
  failed : Nat := 0
  deriving Repr, DecidableEq, Inhabited

/-- The resolver. -/
structure Resolver where
  mac : MacAddress
  parameters : Parameters
  packetizer : Packetizer
  depacketizer : Depacketizer
  phase : Phase := .idle
  cache : Cache
  /-- The address of the latest lookup. -/
  target : Ipv4 := .unspecified
  /-- The requests sent for the lookup in progress. -/
  requests : Nat := 0
  /-- While a request is outstanding, the time of the next one. -/
  deadline : Option Nat := none
  /-- A frame for which the MAC had no room. -/
  heldFrame : Option Ethernet.Frame := none
  /-- An answer that its asker has not taken yet. -/
  heldAnswer : Option Answer := none
  stats : Stats := {}
  deriving Repr, DecidableEq, Inhabited

/-- A resolver with everything it works on. -/
structure Station where
  resolver : Resolver
  /-- Its port of the MAC. -/
  link : Link Ethernet.Frame
  table : Table
  /-- The address of the board. -/
  localIp : Ipv4
  deriving Repr, DecidableEq, Inhabited

namespace Resolver

/-- The name under which a resolver logs. -/
def source : String := "arp"

/-- A resolver with an empty cache. -/
def make (mac : MacAddress) (parameters : Parameters) (width : Nat) : Resolver where
  mac := mac
  parameters := parameters
  packetizer := { header, width }
  depacketizer := { format := header, width }
  cache := .make parameters.entries parameters.cacheTimeout

/-! ## §2. Messages. -/

/-- Is a request outstanding? -/
def isWaiting (r : Resolver) : Bool := r.deadline.isSome

/-- The lookup in progress is over. -/
def settle (r : Resolver) : Resolver := { r with requests := 0, deadline := none }

/-- Check a received frame: the message in it if it is one for the local
address, else nothing.  Either way one counter moves. -/
def hear (r : Resolver) (localIp : Ipv4) (frame : Ethernet.Frame) :
    Resolver × Option Message × List Log.Line :=
  let (depacketizer, packet) := r.depacketizer.depacketize frame.payload
  let r := { r with depacketizer }
  let invalid := { r with stats := { r.stats with invalid := r.stats.invalid + 1 } }
  match packet with
  | none => (invalid, none, [])
  | some (values, _) =>
    match (Message.ofFields? values).filter (·.targetIp == localIp) with
    | none =>
      let target := values.ip "target_ip"
      (invalid, none, [⟨Log.extensive, source, s!"ignoring packet for {target.text}"⟩])
    | some message =>
      let stats := match message.operation with
        | .request => { r.stats with rxRequests := r.stats.rxRequests + 1 }
        | .reply => { r.stats with rxReplies := r.stats.rxReplies + 1 }
      ({ r with stats }, some message, [])

/-- The frame of a message to a station, filled to the minimum payload. -/
def compose (r : Resolver) (localIp : Ipv4) (operation : Operation) (mac : MacAddress)
    (ip : Ipv4) : Resolver × Ethernet.Frame × List Log.Line :=
  let message : Message :=
    { operation, senderMac := r.mac, senderIp := localIp, targetMac := mac, targetIp := ip }
  let (packetizer, bs) := r.packetizer.packetize message.fields []
  let payload := bs ++ List.replicate (Ethernet.minPayloadLength - bs.length) 0
  ({ r with packetizer },
    { target := mac, sender := r.mac, type := Ethernet.typeArp, payload },
    [⟨Log.high, source, s!"sending {operation.name} for {ip.text} to {mac.text}"⟩])

end Resolver

namespace Station

/-! ## §3. Transitions. -/

/-- Send a message, or hold its frame. -/
def send (s : Station) (operation : Operation) (mac : MacAddress) (ip : Ipv4) :
    Station × List Log.Line :=
  let (resolver, frame, log) := s.resolver.compose s.localIp operation mac ip
  let (heldFrame, outbound) := sendOrHold frame s.link.outbound
  ({ s with resolver := { resolver with heldFrame }, link := { s.link with outbound } }, log)

/-- What an idle machine does with a message. -/
def answerMessage (s : Station) (m : Message) : Station × Phase × List Log.Line :=
  match m.operation with
  | .request => (s, .sendReply m.senderIp m.senderMac, [])
  | .reply =>
    -- only a reply that was asked for can change the cache
    if s.resolver.isWaiting then (s, .checkRequest m.senderIp m.senderMac, [])
    else (s, .idle, [])

/-- The outstanding request has had no reply in time: ask again, or give up. -/
def retry (s : Station) : Station × Phase × List Log.Line :=
  let r := s.resolver
  if r.parameters.maxRequests ≤ r.requests then
    let stats := { r.stats with failed := r.stats.failed + 1 }
    ({ s with resolver := { r.settle with stats } }, .presentResponse ⟨r.target, none⟩,
      [⟨Log.medium, Resolver.source, s!"no reply from {r.target.text}, giving up"⟩])
  else (s, .sendRequest, [])

/-- What an idle machine does: a message first, then a retry that is due; a new
lookup only when no request is outstanding. -/
def leaveIdle (now : Nat) (event : Option Message) (s : Station) :
    Option (Station × Phase × List Log.Line) :=
  match event, s.resolver.deadline with
  | some m, _ => some (s.answerMessage m)
  | none, some deadline => if deadline ≤ now then some s.retry else none
  | none, none =>
    s.table.lookups.take.map fun (target, lookups) =>
      ({ s with table := { s.table with lookups }
                resolver := { s.resolver with target, requests := 0 } }, .checkTable, [])

/-- One transition: the machine after it, its next phase and what it logs; none
if the machine has to wait. -/
def transition (now : Nat) (event : Option Message) (s : Station) :
    Option (Station × Phase × List Log.Line) :=
  let r := s.resolver
  match r.phase with
  | .idle => s.leaveIdle now event
  | .sendReply ip mac =>
    if r.heldFrame.isSome then none
    else
      let (s, log) := s.send .reply mac ip
      let stats := { s.resolver.stats with txReplies := s.resolver.stats.txReplies + 1 }
      some ({ s with resolver := { s.resolver with stats } }, .idle, log)
  -- a reply of another station leaves the request outstanding
  | .checkRequest ip mac => some (s, if ip = r.target then .updateTable ip mac else .idle, [])
  | .updateTable ip mac =>
    let stats := { r.stats with resolved := r.stats.resolved + 1 }
    let cache := r.cache.insert ip mac now
    some ({ s with resolver := { r.settle with cache, stats } }, .presentResponse ⟨ip, some mac⟩, [])
  | .checkTable =>
    let (cache, mac) := r.cache.lookup r.target now
    let s := { s with resolver := { r with cache } }
    match mac with
    | some mac => some (s, .presentResponse ⟨r.target, some mac⟩, [])
    | none => some (s, .sendRequest, [])
  | .sendRequest =>
    if r.heldFrame.isSome then none
    else
      let (s, log) := s.send .request .broadcast r.target
      let r := s.resolver
      let stats := { r.stats with txRequests := r.stats.txRequests + 1 }
      -- the time counts from here, whether the MAC has room or not
      let deadline := some (now + r.parameters.timeout)
      some ({ s with resolver := { r with requests := r.requests + 1, deadline, stats } }, .idle, log)
  | .presentResponse answer =>
    if r.heldAnswer.isSome then none
    else
      let (heldAnswer, answers) := sendOrHold answer s.table.answers
      some ({ s with resolver := { r with heldAnswer }, table := { s.table with answers } }, .idle,
        [])

/-- Make one transition, if the machine need not wait. -/
def turn (now : Nat) (event : Option Message) (s : Station) : Outcome Station :=
  match s.transition now event with
  | none => .idle s
  | some (next, phase, log) =>
    let before := s.resolver.phase
    let change :=
      if phase = before then []
      else [⟨Log.extensive, Resolver.source, s!"table {before.text} -> {phase.text}"⟩]
    .moved { next with resolver := { next.resolver with phase } } (log ++ change)

/-! ## §4. Steps. -/

/-- Try to send the held frame and the held answer. -/
def flushHeld (s : Station) : Outcome Station :=
  let (frameLeft, heldFrame, outbound) := flush s.resolver.heldFrame s.link.outbound
  let (answerLeft, heldAnswer, answers) := flush s.resolver.heldAnswer s.table.answers
  { state := { s with
      resolver := { s.resolver with heldFrame, heldAnswer }
      link := { s.link with outbound }
      table := { s.table with answers } }
    progress := frameLeft || answerLeft }

/-- Hear one received frame: the message it brings to an idle machine. -/
def hearFrame (s : Station) (frame : Ethernet.Frame) : Station × Option Message × List Log.Line :=
  let (resolver, message, log) := s.resolver.hear s.localIp frame
  match message with
  | none => ({ s with resolver }, none, log)
  | some m =>
    -- a busy machine hears, counts and forgets
    if resolver.phase = .idle then ({ s with resolver }, some m, log)
    else
      let stats := { resolver.stats with droppedBusy := resolver.stats.droppedBusy + 1 }
      ({ s with resolver := { resolver with stats } }, none,
        log ++ [⟨Log.medium, Resolver.source,
          s!"table busy, packet from {m.senderIp.text} dropped"⟩])

/-- Send what is held, hear at most one frame, make at most one transition. -/
def step (now : Nat) (s : Station) : Outcome Station :=
  s.flushHeld.andThen fun s =>
    match s.link.inbound.take with
    | none => s.turn now none
    | some (frame, inbound) =>
      let (s, event, log) := { s with link := { s.link with inbound } }.hearFrame frame
      (Outcome.moved s log).andThen (turn now event)

end Station
end NetBoard.Arp
