/-
  NetBoard.Stack.Basic
  ────────────────────
  **THE WHOLE STACK.**

  All layers of a board on one bus: media access, address resolution, IPv4,
  optionally the echo service, UDP, and on it optionally the configuration
  client, the bus endpoint and the byte streamer.  A step gives every layer
  one step, from the wire upward; the layers meet in the pipes of the
  crossbars they subscribe to.

  Main definitions:

      Stack.build   — the stack of some settings, or why there is none
      Stack.step    — one step of every layer
      Stack.poll    — steps until nothing moves any more
-/
import NetBoard.Stack.Settings
import NetBoard.Stack.Stats

namespace NetBoard

/-! ## §1. States. -/

/-- A stack.  The subscribers' pipes are in the crossbars they subscribe to. -/
structure Stack where
  /-- The address of the board. -/
  localIp : Ipv4
  mac : Ethernet.Mac
  resolver : Arp.Resolver
  /-- The pipes between the resolver and the IP layer. -/
  table : Arp.Table
  ip : Ip.Layer
  icmp : Option Icmp.Echo := none
  udp : Udp.Layer
  dhcp : Option Dhcp.Client := none
  etherbone : Option Etherbone.Endpoint := none
  streamer : Option Streamer := none
  deriving Repr, DecidableEq, Inhabited

namespace Stack

/-- The name under which a stack logs. -/
def source : String := "core"

/-- The counters of all layers. -/
def stats (s : Stack) : Stats where
  mac := s.mac.stats
  arp := s.resolver.stats
  ip := s.ip.stats
  icmp := s.icmp.map (·.stats)
  udp := s.udp.stats
  dhcp := s.dhcp.map (·.stats)
  etherbone := s.etherbone.map (·.stats)
  streamer := s.streamer.map (·.stats)

/-! ## §2. Construction. -/

/-- Open a user's port. -/
def openPort (s : Stack) (port : UInt16) (width : Nat) : Stack × Option Fault × List Log.Line :=
  let o := s.udp.openPort port width
  ({ s with udp := o.layer }, o.fault, o.log)

/-- Open a port for one of the stack's own users. -/
def openOwn (s : Stack) (port : UInt16) (width : Nat) : Except Fault (Stack × List Log.Line) :=
  match s.openPort port width with
  | (s, none, log) => .ok (s, log)
  | (_, some fault, _) => .error fault

/-- A stack of the layers every board has. -/
def buildCore (c : Settings) : Except Fault (Stack × List Log.Line) := do
  if c.arp.entries = 0 then throw (.config "at least one ARP entry is needed")
  let mac ← Ethernet.Mac.make? c.mac c.width c.bareWire c.gap c.depth
  -- arbitration asks subscribers in the order in which they register here
  let (mac, arpLog) ← mac.register Ethernet.typeArp
  let (mac, ipLog) ← mac.register Ethernet.typeIp
  let ip := Ip.Layer.make c.mac c.mtu c.promiscuous c.width c.depth
  let (ip, icmpLog) ← if c.withIcmp then ip.register Icmp.protocol else pure (ip, [])
  let (ip, udpLog) ← ip.register Udp.protocol
  return ({
      localIp := c.ip.getD .unspecified
      mac, ip
      resolver := .make c.mac c.arp c.width
      table := .make
      icmp := if c.withIcmp then some (.make c.width c.echoDepth) else none
      udp := .make c.width c.depth },
    arpLog ++ ipLog ++ icmpLog ++ udpLog)

/-- Add the configuration client, if the stack has no address of its own. -/
def addDhcp (c : Settings) (s : Stack) : Except Fault (Stack × List Log.Line) :=
  if c.ip.isSome then .ok (s, [])
  else do
    let (s, log) ← s.openOwn Dhcp.clientPort Dhcp.Client.portWidth
    let client ← Dhcp.Client.make? c.mac Dhcp.Client.portWidth c.dhcpTimeout c.dhcpRetry
    return ({ s with dhcp := some client }, log)

/-- Add the bus endpoint, if there is to be one. -/
def addEtherbone (c : Settings) (s : Stack) : Except Fault (Stack × List Log.Line) :=
  match c.etherbone with
  | none => .ok (s, [])
  | some p => do
    let (s, log) ← s.openOwn p.port Etherbone.busWidth
    let endpoint ←
      Etherbone.Endpoint.make? p.port Etherbone.busWidth (.make p.base p.size) p.bufferDepth
    return ({ s with etherbone := some endpoint }, log)

/-- Add the streamer, if there is to be one. -/
def addStreamer (c : Settings) (s : Stack) : Except Fault (Stack × List Log.Line) :=
  match c.streamer with
  | none => .ok (s, [])
  | some p => do
    let (s, portLog) ← s.openOwn p.port 1
    let (streamer, log) ← Streamer.make? 1 p
    return ({ s with streamer := some streamer }, portLog ++ log)

/-- Build a stack: the stack and what it logged, or the first fault. -/
def build (c : Settings) : Except Fault (Stack × List Log.Line) := do
  let (s, coreLog) ← buildCore c
  let (s, dhcpLog) ← addDhcp c s
  let (s, etherboneLog) ← addEtherbone c s
  let (s, streamerLog) ← addStreamer c s
  let address := (c.ip.map Ipv4.text).getD "from dhcp"
  return (s, coreLog ++ dhcpLog ++ etherboneLog ++ streamerLog ++
    [⟨Log.low, source, s!"stack {c.mac.text} up, ip {address}, {c.width * 8} bits datapath"⟩])

/-! ## §3. The step of each layer. -/

/-- Replace the pipes of a subscriber of the MAC. -/
def setMacLink (s : Stack) (type : UInt16) (link : Link Ethernet.Frame) : Stack :=
  { s with mac := { s.mac with crossbar := s.mac.crossbar.setLink type link } }

/-- Replace the pipes of a subscriber of the IP layer. -/
def setIpLink (s : Stack) (protocol : UInt8) (link : Link Ip.Packet) : Stack :=
  { s with ip := { s.ip with crossbar := s.ip.crossbar.setLink protocol.toUInt16 link } }

/-- Replace the pipes of a user of the UDP layer. -/
def setUdpLink (s : Stack) (port : UInt16) (link : Link Udp.UserPacket) : Stack :=
  { s with udp := s.udp.setUser port link }

/-- One step of the MAC. -/
def stepMac (s : Stack) : Outcome Stack := s.mac.step.map fun mac => { s with mac }

/-- One step of the resolver. -/
def stepArp (now : Nat) (s : Stack) : Outcome Stack :=
  match s.mac.crossbar.link? Ethernet.typeArp with
  | none => .idle s
  | some link =>
    (Arp.Station.step now ⟨s.resolver, link, s.table, s.localIp⟩).map fun t =>
      { s with resolver := t.resolver, table := t.table }.setMacLink Ethernet.typeArp t.link

/-- One step of the IP layer. -/
def stepIp (s : Stack) : Outcome Stack :=
  match s.mac.crossbar.link? Ethernet.typeIp with
  | none => .idle s
  | some link =>
    (Ip.Station.step ⟨s.ip, link, s.table, s.localIp⟩).map fun t =>
      { s with ip := t.layer, table := t.table }.setMacLink Ethernet.typeIp t.link

/-- One step of the echo service. -/
def stepIcmp (s : Stack) : Outcome Stack :=
  match s.icmp, s.ip.crossbar.link? Icmp.protocol.toUInt16 with
  | some echo, some link =>
    (Icmp.Station.step ⟨echo, link⟩).map fun t =>
      { s with icmp := some t.echo }.setIpLink Icmp.protocol t.link
  | _, _ => .idle s

/-- One step of the UDP layer. -/
def stepUdp (s : Stack) : Outcome Stack :=
  match s.ip.crossbar.link? Udp.protocol.toUInt16 with
  | none => .idle s
  | some link =>
    (Udp.Station.step ⟨s.udp, link⟩).map fun t =>
      { s with udp := t.layer }.setIpLink Udp.protocol t.link

/-- One step of the configuration client. -/
def stepDhcp (now : Nat) (s : Stack) : Outcome Stack :=
  match s.dhcp, s.udp.user? Dhcp.clientPort with
  | some client, some link =>
    (Dhcp.Station.step now ⟨client, link, s.localIp⟩).map fun t =>
      { s with dhcp := some t.client, localIp := t.localIp }.setUdpLink Dhcp.clientPort t.link
  | _, _ => .idle s

/-- One step of the bus endpoint. -/
def stepEtherbone (s : Stack) : Outcome Stack :=
  match s.etherbone with
  | none => .idle s
  | some endpoint =>
    match s.udp.user? endpoint.port with
    | none => .idle s
    | some link =>
      (Etherbone.Station.step ⟨endpoint, link⟩).map fun t =>
        { s with etherbone := some t.endpoint }.setUdpLink endpoint.port t.link

/-- One step of the streamer. -/
def stepStreamer (s : Stack) : Outcome Stack :=
  match s.streamer with
  | none => .idle s
  | some streamer =>
    match s.udp.user? streamer.port with
    | none => .idle s
    | some link =>
      (Streamer.Station.step ⟨streamer, link⟩).map fun t =>
        { s with streamer := some t.streamer }.setUdpLink streamer.port t.link

/-! ## §4. Steps of the stack. -/

/-- One step of every layer, from the wire upward. -/
def step (now : Nat) (s : Stack) : Outcome Stack :=
  -- from the wire upward: what a crossbar delivers is taken in the same step
  (((((((s.stepMac.andThen (stepArp now)).andThen stepIp).andThen stepIcmp).andThen
    stepUdp).andThen (stepDhcp now)).andThen stepEtherbone).andThen stepStreamer)

/-- The most steps of one poll. -/
def maxRounds : Nat := 65536

/-- Step until a step makes no progress: the state, the number of steps that
made progress, and the log. -/
def poll (now : Nat) (s : Stack) : Stack × Nat × List Log.Line :=
  let (s, rounds, log) := Outcome.settle (step now) maxRounds s
  let busy :=
    if rounds = maxRounds then
      [⟨Log.medium, source, s!"stack still busy after {rounds} rounds"⟩]
    else []
  (s, rounds, log ++ busy)

end Stack
end NetBoard
