/-
  NetBoard.Proofs.Datapath.Stack
  ──────────────────────────────
  **THE WIDTH OF THE DATAPATH IS NOT SEEN.**

  Two stacks built from the same settings, but for the lanes of the bus, answer
  the world in the same way: they take and send the same frames, their users
  receive the same datagrams, each of their steps makes progress where the
  other's does, and their counters, addresses and clients are the same after
  every action.  The wire carries frames alone; on a bare wire the gap between
  two frames is counted in bus cycles, and those do depend on the width.

  Main definitions:

      Stack.on         — the stack with the stages of a datapath
      Stack.Action     — what the world can do to a stack
      Stack.behaviour  — all that it sees in doing so

  Main statements:

      Stack.build_alike         — construction, but for the line it logs
      Stack.step_oblivious      — a step of all layers
      Stack.act_on              — one action
      Stack.run_on              — any number of them
      Stack.width_unobservable  — two widths behave the same
-/
import NetBoard.Proofs.Datapath.Link
import NetBoard.Proofs.Datapath.Network
import NetBoard.Proofs.Datapath.Transport
import NetBoard.Stack.Basic

namespace NetBoard

open Outcome (Alike Oblivious)

/-! ## §1. Construction of the layers. -/

namespace Ethernet.Mac

/-- The stages of a MAC that has not handled a frame yet. -/
def Datapath.make (width : BusWidth) : Datapath where
  stages := .make header width
  preambler := { header := Preamble.header, width }
  deambler := { format := Preamble.header, width }

theorem make?_alike (address : MacAddress) (gapOctets depth : Nat) :
    BuiltAlike (fun mac width => mac.on (.make width)) fun width : BusWidth =>
      make? address width false gapOctets depth := by
  refine ⟨make? address 1 false gapOctets depth, fun width => ?_⟩
  -- no gap is no cycle on any bus
  have hgap : Gap.make 0 width = Gap.make 0 1 := by
    have hcycles : (0 + width.1 - 1) / width.1 = 0 :=
      Nat.div_eq_of_lt (by have := width.2.pos; omega)
    unfold Gap.make
    rw [hcycles]
  show make? address width false gapOctets depth = _
  unfold make?
  rw [checkWidth_eq_ok_iff.2 ⟨width.2, rfl⟩, checkWidth_eq_ok_iff.2 ⟨Or.inl rfl, rfl⟩]
  simp only [Bool.false_eq_true, if_false]
  show Except.ok _ = Except.ok _
  rw [hgap]
  rfl

theorem register_alike (mac : Mac) (type : UInt16) :
    BuiltAlike (fun (mac, log) width => (mac.on (.make width), log)) fun width =>
      (mac.on (.make width)).register type := by
  refine ⟨mac.register type, fun width => ?_⟩
  show (mac.on (.make width)).register type = _
  unfold register
  rw [show (mac.on (.make width)).crossbar = mac.crossbar from rfl]
  cases mac.crossbar.register type <;> rfl

end Ethernet.Mac

theorem Ip.Layer.register_alike (l : Layer) (protocol : UInt8) :
    BuiltAlike (fun (l, log) width => (l.on (.make header width), log)) fun width =>
      (l.on (.make header width)).register protocol := by
  refine ⟨l.register protocol, fun width => ?_⟩
  show (l.on (.make header width)).register protocol = _
  unfold register
  rw [show (l.on (.make header width)).crossbar = l.crossbar from rfl]
  cases l.crossbar.register protocol.toUInt16 <;> rfl

namespace Stack

/-! ## §2. Construction. -/

/-- What a stack has of the datapath. -/
structure Datapath where
  mac : Ethernet.Mac.Datapath
  arp : Stages Arp.header
  ip : Stages Ip.header
  icmp : Stages Icmp.header
  udp : Udp.Layer.Datapath

/-- The datapath of a stack that has not handled anything yet. -/
def Datapath.make (width : BusWidth) : Datapath where
  mac := .make width
  arp := .make Arp.header width
  ip := .make Ip.header width
  icmp := .make Icmp.header width
  udp := { width, stages := .make Udp.header width }

/-- The stack on a datapath. -/
def on (s : Stack) (d : Datapath) : Stack :=
  { s with
    mac := s.mac.on d.mac
    resolver := s.resolver.on d.arp
    ip := s.ip.on d.ip
    icmp := s.icmp.map (·.on d.icmp)
    udp := s.udp.on d.udp }

/-- A stack and what building it logged, on the datapath of a width. -/
def logged (built : Stack × List Log.Line) (width : BusWidth) : Stack × List Log.Line :=
  (built.1.on (.make width), built.2)

theorem buildCore_alike (c : Settings) (hwire : c.bareWire = false) :
    BuiltAlike logged fun width => buildCore { c with width } := by
  let core (mac : Ethernet.Mac) (ip : Ip.Layer) (icmp : Option Icmp.Echo) : Stack := {
    localIp := c.ip.getD .unspecified
    mac, ip, icmp
    resolver := .make c.mac c.arp 1
    table := .make
    udp := .make 1 c.depth }
  let ip := Ip.Layer.make c.mac c.mtu c.promiscuous 1 c.depth
  unfold buildCore
  by_cases hentries : c.arp.entries = 0
  · simp only [if_pos hentries]
    exact .error _
  · simp only [if_neg hentries, hwire]
    refine (Ethernet.Mac.make?_alike c.mac c.gap c.depth).bind fun mac => ?_
    refine (mac.register_alike Ethernet.typeArp).bind fun registered => ?_
    obtain ⟨mac, arpLog⟩ := registered
    refine (mac.register_alike Ethernet.typeIp).bind fun registered => ?_
    obtain ⟨mac, ipLog⟩ := registered
    cases c.withIcmp with
    | true =>
      refine (ip.register_alike Icmp.protocol).bind fun registered => ?_
      obtain ⟨ip, icmpLog⟩ := registered
      refine (ip.register_alike Udp.protocol).bind fun registered => ?_
      obtain ⟨ip, udpLog⟩ := registered
      exact .ok (core mac ip (some (.make 1 c.echoDepth)), arpLog ++ ipLog ++ icmpLog ++ udpLog)
    | false =>
      simp only [Bool.false_eq_true, if_false, pure_bind]
      refine (ip.register_alike Udp.protocol).bind fun registered => ?_
      obtain ⟨ip, udpLog⟩ := registered
      exact .ok (core mac ip none, arpLog ++ ipLog ++ [] ++ udpLog)

variable (s : Stack)

theorem openPort_on (port : UInt16) (width : Nat) :
    ∃ (next : Stack) (fault : Option Fault) (log : List Log.Line), ∀ d,
      (s.on d).openPort port width = (next.on d, fault, log) := by
  obtain ⟨plain, hopen⟩ := s.udp.openPort_on port width
  refine ⟨{ s with udp := plain.layer }, plain.fault, plain.log, fun d => ?_⟩
  unfold openPort
  rw [show (s.on d).udp.openPort port width = _ from hopen d.udp]
  rfl

theorem openOwn_alike (port : UInt16) (width : Nat) :
    BuiltAlike logged fun lanes => (s.on (.make lanes)).openOwn port width := by
  obtain ⟨next, fault, log, hopen⟩ := s.openPort_on port width
  unfold openOwn
  simp only [hopen]
  cases fault with
  | none => exact .ok (next, log)
  | some fault => exact .error fault

theorem addDhcp_alike (c : Settings) :
    BuiltAlike logged fun width => addDhcp c (s.on (.make width)) := by
  unfold addDhcp
  cases c.ip.isSome with
  | true => exact .ok (s, [])
  | false =>
    refine (s.openOwn_alike Dhcp.clientPort Dhcp.Client.portWidth).bind fun opened => ?_
    obtain ⟨s, log⟩ := opened
    cases Dhcp.Client.make? c.mac Dhcp.Client.portWidth c.dhcpTimeout c.dhcpRetry with
    | error fault => exact .error fault
    | ok client => exact .ok ({ s with dhcp := some client }, log)

theorem addEtherbone_alike (c : Settings) :
    BuiltAlike logged fun width => addEtherbone c (s.on (.make width)) := by
  unfold addEtherbone
  cases c.etherbone with
  | none => exact .ok (s, [])
  | some p =>
    refine (s.openOwn_alike p.port Etherbone.busWidth).bind fun opened => ?_
    obtain ⟨s, log⟩ := opened
    cases Etherbone.Endpoint.make? p.port Etherbone.busWidth (.make p.base p.size) p.bufferDepth with
    | error fault => exact .error fault
    | ok endpoint => exact .ok ({ s with etherbone := some endpoint }, log)

theorem addStreamer_alike (c : Settings) :
    BuiltAlike logged fun width => addStreamer c (s.on (.make width)) := by
  unfold addStreamer
  cases c.streamer with
  | none => exact .ok (s, [])
  | some p =>
    refine (s.openOwn_alike p.port 1).bind fun opened => ?_
    obtain ⟨s, portLog⟩ := opened
    cases Streamer.make? 1 p with
    | error fault => exact .error fault
    | ok made =>
      obtain ⟨streamer, log⟩ := made
      exact .ok ({ s with streamer := some streamer }, portLog ++ log)

/-- The stack that is built, without what building it logs. -/
theorem build_fst (c : Settings) : (build c).map (·.1) = do
    let (s, _) ← buildCore c
    let (s, _) ← addDhcp c s
    let (s, _) ← addEtherbone c s
    let (s, _) ← addStreamer c s
    return s := by
  show Prod.fst <$> build c = _
  unfold build
  simp only [map_bind, map_pure]

/-- The same stack is built on every datapath, or the same fault prevents it. -/
theorem build_alike (c : Settings) (hwire : c.bareWire = false) :
    BuiltAlike (fun s width => s.on (.make width)) fun width : BusWidth =>
      (build { c with width }).map (·.1) := by
  simp only [build_fst]
  refine (buildCore_alike c hwire).bind fun built => ?_
  refine (built.1.addDhcp_alike c).bind fun built => ?_
  refine (built.1.addEtherbone_alike c).bind fun built => ?_
  refine (built.1.addStreamer_alike c).bind fun built => ?_
  exact .ok built.1

/-! ## §3. Steps. -/

theorem stepMac_oblivious : Oblivious on stepMac := fun s =>
  (Ethernet.Mac.step_oblivious s.mac).map Datapath.mac (fun d mac => { d with mac })
    (fun mac => { s with mac }) fun _ _ _ => rfl

theorem stepArp_oblivious (now : Nat) : Oblivious on (stepArp now) := by
  intro s
  have hcrossbar : ∀ d, (s.on d).mac.crossbar = s.mac.crossbar := fun d => rfl
  unfold stepArp
  simp only [hcrossbar]
  cases s.mac.crossbar.link? Ethernet.typeArp with
  | none => exact .idle s
  | some link =>
    exact (Arp.Station.step_oblivious now ⟨s.resolver, link, s.table, s.localIp⟩).map
      Datapath.arp (fun d arp => { d with arp })
      (fun t => { s with resolver := t.resolver, table := t.table }.setMacLink
        Ethernet.typeArp t.link) fun _ _ _ => rfl

theorem stepIp_oblivious : Oblivious on stepIp := by
  intro s
  have hcrossbar : ∀ d, (s.on d).mac.crossbar = s.mac.crossbar := fun d => rfl
  unfold stepIp
  simp only [hcrossbar]
  cases s.mac.crossbar.link? Ethernet.typeIp with
  | none => exact .idle s
  | some link =>
    exact (Ip.Station.step_oblivious ⟨s.ip, link, s.table, s.localIp⟩).map
      Datapath.ip (fun d ip => { d with ip })
      (fun t => { s with ip := t.layer, table := t.table }.setMacLink
        Ethernet.typeIp t.link) fun _ _ _ => rfl

theorem stepIcmp_oblivious : Oblivious on stepIcmp := by
  intro s
  have hon : ∀ d, (s.on d).icmp = s.icmp.map (·.on d.icmp) ∧
      (s.on d).ip.crossbar = s.ip.crossbar := fun d => ⟨rfl, rfl⟩
  unfold stepIcmp
  simp only [hon]
  cases hicmp : s.icmp with
  | none =>
    cases s.ip.crossbar.link? Icmp.protocol.toUInt16 <;> exact .idle s
  | some echo =>
    cases s.ip.crossbar.link? Icmp.protocol.toUInt16 with
    | none => exact .idle s
    | some link =>
      exact (Icmp.Station.step_oblivious ⟨echo, link⟩).map
        Datapath.icmp (fun d icmp => { d with icmp })
        (fun t => { s with icmp := some t.echo }.setIpLink Icmp.protocol t.link) fun _ _ _ => rfl

theorem stepUdp_oblivious : Oblivious on stepUdp := by
  intro s
  have hcrossbar : ∀ d, (s.on d).ip.crossbar = s.ip.crossbar := fun d => rfl
  unfold stepUdp
  simp only [hcrossbar]
  cases s.ip.crossbar.link? Udp.protocol.toUInt16 with
  | none => exact .idle s
  | some link =>
    exact (Udp.Station.step_oblivious ⟨s.udp, link⟩).map
      Datapath.udp (fun d udp => { d with udp })
      (fun t => { s with udp := t.layer }.setIpLink Udp.protocol t.link) fun _ _ _ => rfl

theorem setUdpLink_on (port : UInt16) (link : Link Udp.UserPacket) (d : Datapath) :
    (s.on d).setUdpLink port link = (s.setUdpLink port link).on d :=
  congrArg (fun udp => { s.on d with udp }) (s.udp.setUser_on d.udp port link)

/-- What one of the stack's own users did, seen as a step of the stack. -/
theorem alike_user {τ : Type} (o : Outcome τ) (whole : τ → Stack) (port : UInt16)
    (link : τ → Link Udp.UserPacket) :
    Alike on fun d => o.map fun t => ((whole t).on d).setUdpLink port (link t) := by
  simp only [setUdpLink_on]
  exact .still (o.map fun t => (whole t).setUdpLink port (link t))

theorem stepDhcp_oblivious (now : Nat) : Oblivious on (stepDhcp now) := by
  intro s
  have hon : ∀ d, (s.on d).dhcp = s.dhcp ∧ (s.on d).udp = s.udp.on d.udp := fun d => ⟨rfl, rfl⟩
  unfold stepDhcp
  simp only [hon, Udp.Layer.user?_on]
  cases s.dhcp with
  | none => exact .idle s
  | some client =>
    cases s.udp.user? Dhcp.clientPort with
    | none => exact .idle s
    | some link =>
      exact alike_user (Dhcp.Station.step now ⟨client, link, s.localIp⟩)
        (fun t => { s with dhcp := some t.client, localIp := t.localIp }) Dhcp.clientPort (·.link)

theorem stepEtherbone_oblivious : Oblivious on stepEtherbone := by
  intro s
  have hon : ∀ d, (s.on d).etherbone = s.etherbone ∧ (s.on d).udp = s.udp.on d.udp :=
    fun d => ⟨rfl, rfl⟩
  unfold stepEtherbone
  simp only [hon, Udp.Layer.user?_on]
  cases s.etherbone with
  | none => exact .idle s
  | some endpoint =>
    dsimp only
    cases s.udp.user? endpoint.port with
    | none => exact .idle s
    | some link =>
      exact alike_user (Etherbone.Station.step ⟨endpoint, link⟩)
        (fun t => { s with etherbone := some t.endpoint }) endpoint.port (·.link)

theorem stepStreamer_oblivious : Oblivious on stepStreamer := by
  intro s
  have hon : ∀ d, (s.on d).streamer = s.streamer ∧ (s.on d).udp = s.udp.on d.udp :=
    fun d => ⟨rfl, rfl⟩
  unfold stepStreamer
  simp only [hon, Udp.Layer.user?_on]
  cases s.streamer with
  | none => exact .idle s
  | some streamer =>
    dsimp only
    cases s.udp.user? streamer.port with
    | none => exact .idle s
    | some link =>
      exact alike_user (Streamer.Station.step ⟨streamer, link⟩)
        (fun t => { s with streamer := some t.streamer }) streamer.port (·.link)

/-- **A step of the stack** does the same on every datapath. -/
theorem step_oblivious (now : Nat) : Oblivious on (step now) :=
  ((((((stepMac_oblivious.andThen (stepArp_oblivious now)).andThen stepIp_oblivious).andThen
    stepIcmp_oblivious).andThen stepUdp_oblivious).andThen (stepDhcp_oblivious now)).andThen
    stepEtherbone_oblivious).andThen stepStreamer_oblivious

/-! ## §4. The world around a stack. -/

/-- What the world can do to a stack. -/
inductive Action where
  /-- Octets arrive on the wire. -/
  | send (bs : Bytes)
  /-- The wire takes the next frame. -/
  | take
  /-- A user opens a port of so many lanes. -/
  | openPort (port : UInt16) (width : Nat)
  /-- The user of a port sends a datagram, in whatever beats. -/
  | userSend (port : UInt16) (packet : Udp.UserPacket)
  /-- The user of a port takes the next datagram. -/
  | userTake (port : UInt16)
  /-- The user of a port goes. -/
  | abandon (port : UInt16)
  /-- The application of the streamer writes bytes. -/
  | write (bs : Bytes)
  /-- The application of the streamer reads at most so many bytes. -/
  | read (n : Nat)
  /-- Every layer makes one step. -/
  | step (now : Nat)

/-- What the world is told. -/
inductive Answer where
  /-- There is no such port, or no streamer. -/
  | absent
  | done
  | offered (offer : Offer)
  | frame (bs : Option Bytes)
  | opened (fault : Option Fault) (log : List Log.Line)
  | packet (packet : Option Udp.UserPacket)
  | written (n : Nat)
  | bytes (bs : Bytes)
  | stepped (progress : Bool) (log : List Log.Line)
  deriving DecidableEq

/-- What the world can see of a stack at any time. -/
structure View where
  localIp : Ipv4
  unreachable : Bool
  stats : Stats
  dhcp : Option Dhcp.Client
  etherbone : Option Etherbone.Endpoint
  streamer : Option Streamer
  deriving DecidableEq

/-- The stack as it is seen. -/
def view : View where
  localIp := s.localIp
  unreachable := s.ip.unreachable
  stats := s.stats
  dhcp := s.dhcp
  etherbone := s.etherbone
  streamer := s.streamer

/-- An action of the user of a port. -/
def actUser (port : UInt16) (act : Link Udp.UserPacket → Link Udp.UserPacket × Answer) :
    Stack × Answer :=
  match s.udp.user? port with
  | none => (s, .absent)
  | some link => (s.setUdpLink port (act link).1, (act link).2)

/-- An action of the application of the streamer. -/
def actStream (act : Streamer → Streamer × Answer) : Stack × Answer :=
  match s.streamer with
  | none => (s, .absent)
  | some streamer => ({ s with streamer := some (act streamer).1 }, (act streamer).2)

/-- The stack after an action, and what the world is told. -/
def act : Action → Stack × Answer
  | .send bs =>
    let (offer, wireIn) := s.mac.wireIn.offer bs
    ({ s with mac := { s.mac with wireIn } }, .offered offer)
  | .take =>
    match s.mac.wireOut.take with
    | none => (s, .frame none)
    | some (bs, wireOut) => ({ s with mac := { s.mac with wireOut } }, .frame (some bs))
  | .openPort port width =>
    let (s, fault, log) := s.openPort port width
    (s, .opened fault log)
  | .userSend port packet =>
    s.actUser port fun link =>
      let (offer, outbound) := link.outbound.offer packet
      ({ link with outbound }, .offered offer)
  | .userTake port =>
    s.actUser port fun link =>
      match link.inbound.take with
      | none => (link, .packet none)
      | some (packet, inbound) => ({ link with inbound }, .packet (some packet))
  | .abandon port => ({ s with udp := s.udp.abandon port }, .done)
  | .write bs =>
    s.actStream fun streamer =>
      if streamer.isWritable then
        let (streamer, n) := streamer.write bs
        (streamer, .written n)
      else (streamer, .absent)
  | .read n =>
    s.actStream fun streamer =>
      if streamer.isReadable then
        let (streamer, bs) := streamer.read n
        (streamer, .bytes bs)
      else (streamer, .absent)
  | .step now =>
    let o := s.step now
    (o.state, .stepped o.progress o.log)

/-- What the world sees in a sequence of actions: after each of them what it is
told, and the stack as it is then. -/
def run : Stack → List Action → List (Answer × View)
  | _, [] => []
  | s, a :: rest => ((s.act a).2, (s.act a).1.view) :: run (s.act a).1 rest

/-- Everything that is seen of a stack of some settings: the fault it could not
be built for, or how it looks at first and in a sequence of actions. -/
def behaviour (c : Settings) (actions : List Action) : Except Fault (View × List (Answer × View)) :=
  (build c).map fun (s, _) => (s.view, s.run actions)

/-! ## §5. Behaviour on two widths. -/

theorem view_on (d : Datapath) : (s.on d).view = s.view := by
  have hicmp : (s.on d).icmp.map (·.stats) = s.icmp.map (·.stats) := by
    show (s.icmp.map _).map _ = _
    rw [Option.map_map]
    rfl
  unfold view stats
  rw [hicmp]
  rfl

theorem actUser_on (port : UInt16) (act : Link Udp.UserPacket → Link Udp.UserPacket × Answer)
    (d : Datapath) :
    (s.on d).actUser port act = ((s.actUser port act).1.on d, (s.actUser port act).2) := by
  unfold actUser
  rw [show (s.on d).udp.user? port = s.udp.user? port from s.udp.user?_on d.udp port]
  cases s.udp.user? port with
  | none => rfl
  | some link => exact Prod.ext (s.setUdpLink_on port (act link).1 d) rfl

theorem actStream_on (act : Streamer → Streamer × Answer) (d : Datapath) :
    (s.on d).actStream act = ((s.actStream act).1.on d, (s.actStream act).2) := by
  unfold actStream
  rw [show (s.on d).streamer = s.streamer from rfl]
  cases s.streamer <;> rfl

/-- An action has the same answer on every datapath, and leads to the same stack. -/
theorem act_on (a : Action) :
    ∃ (next : Stack) (answer : Answer), ∀ d, ∃ d', (s.on d).act a = (next.on d', answer) := by
  cases a with
  | send bs =>
    let taken := s.mac.wireIn.offer bs
    exact ⟨{ s with mac := { s.mac with wireIn := taken.2 } }, .offered taken.1,
      fun d => ⟨d, rfl⟩⟩
  | take =>
    cases htake : s.mac.wireOut.take with
    | none =>
      refine ⟨s, .frame none, fun d => ⟨d, ?_⟩⟩
      unfold act
      dsimp only
      rw [show (s.on d).mac.wireOut.take = none from htake]
    | some taken =>
      obtain ⟨bs, wireOut⟩ := taken
      refine ⟨{ s with mac := { s.mac with wireOut } }, .frame (some bs), fun d => ⟨d, ?_⟩⟩
      unfold act
      dsimp only
      rw [show (s.on d).mac.wireOut.take = some (bs, wireOut) from htake]
      rfl
  | openPort port width =>
    obtain ⟨next, fault, log, hopen⟩ := s.openPort_on port width
    refine ⟨next, .opened fault log, fun d => ⟨d, ?_⟩⟩
    unfold act
    dsimp only
    rw [hopen]
  | userSend port packet => exact ⟨_, _, fun d => ⟨d, s.actUser_on port _ d⟩⟩
  | userTake port => exact ⟨_, _, fun d => ⟨d, s.actUser_on port _ d⟩⟩
  | abandon port =>
    exact ⟨{ s with udp := s.udp.abandon port }, .done, fun d =>
      ⟨d, Prod.ext (congrArg (fun udp => { s.on d with udp }) (s.udp.abandon_on d.udp port)) rfl⟩⟩
  | write bs => exact ⟨_, _, fun d => ⟨d, s.actStream_on _ d⟩⟩
  | read n => exact ⟨_, _, fun d => ⟨d, s.actStream_on _ d⟩⟩
  | step now =>
    obtain ⟨plain, hplain⟩ := step_oblivious now s
    refine ⟨plain.state, .stepped plain.progress plain.log, fun d => ?_⟩
    obtain ⟨d', hd⟩ := hplain d
    refine ⟨d', ?_⟩
    unfold act
    dsimp only at hd ⊢
    rw [hd]
    rfl

/-- Whatever the world does, it sees the same on every datapath. -/
theorem run_on (actions : List Action) :
    ∀ (s : Stack) (d e : Datapath), (s.on d).run actions = (s.on e).run actions := by
  induction actions with
  | nil =>
    intro s d e
    rfl
  | cons a rest ih =>
    intro s d e
    obtain ⟨next, answer, hact⟩ := s.act_on a
    obtain ⟨d', hd⟩ := hact d
    obtain ⟨e', he⟩ := hact e
    unfold run
    rw [hd, he, view_on, view_on, ih next d' e']

/-- **The width of the datapath is not seen.**  Stacks that differ in it alone
cannot be built for the same fault, or show the same in every sequence of actions. -/
theorem width_unobservable (c : Settings) (hwire : c.bareWire = false) {v w : Nat}
    (hv : SupportedWidth v) (hw : SupportedWidth w) (actions : List Action) :
    behaviour { c with width := v } actions = behaviour { c with width := w } actions := by
  obtain ⟨plain, hplain⟩ := build_alike c hwire
  have hbehaviour : ∀ width : BusWidth, behaviour { c with width } actions =
      (plain.map (·.on (.make width))).map fun s => (s.view, s.run actions) := by
    intro width
    rw [← hplain width]
    unfold behaviour
    dsimp only
    cases build { c with width } <;> rfl
  rw [hbehaviour ⟨v, hv⟩, hbehaviour ⟨w, hw⟩]
  cases plain with
  | error fault => rfl
  | ok s =>
    show Except.ok ((s.on _).view, (s.on _).run actions) =
      Except.ok ((s.on _).view, (s.on _).run actions)
    rw [view_on, view_on, run_on]

/-- A user of four lanes counts five octets where its beats hold seven and go
on after the packet has ended.  Five leave, on a bus of one lane as on one of four. -/
theorem width_unobservable_ragged :
    let c : Settings := {}
    let packet : Udp.UserPacket :=
      { ip := ⟨192, 168, 1, 255⟩, srcPort := 7, dstPort := 9, length := 5
        data := [⟨0x04030201, false, 0⟩, ⟨0x08070605, true, 4⟩, ⟨0x0c0b0a09, true, 8⟩] }
    let actions := [.openPort 7 4, .userSend 7 packet, .step 0, .step 0, .step 0, .step 0, .take]
    let seen (width : Nat) := behaviour { c with width } actions
    let frame : Bytes :=
      [255, 255, 255, 255, 255, 255, 16, 226, 213, 0, 0, 0, 8, 0] ++
        [69, 0, 0, 33, 0, 0, 0, 0, 128, 17, 182, 74, 192, 168, 1, 50, 192, 168, 1, 255] ++
        [0, 7, 0, 9, 0, 13, 0, 0] ++ [1, 2, 3, 4, 5] ++ List.replicate 13 0
    c.bareWire = false ∧ SupportedWidth 1 ∧ SupportedWidth 4 ∧ seen 1 = seen 4 ∧
      ((seen 4).toOption.bind fun seen => seen.2.getLast?.map (·.1)) = some (.frame (some frame)) := by
  have hone : SupportedWidth 1 := Or.inl rfl
  have hfour : SupportedWidth 4 := Or.inr (Or.inr (Or.inl rfl))
  refine ⟨rfl, hone, hfour, width_unobservable {} rfl hone hfour _, ?_⟩
  decide +kernel

end Stack
end NetBoard
