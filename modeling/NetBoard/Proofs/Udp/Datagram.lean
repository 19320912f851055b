/-
  NetBoard.Proofs.Udp.Datagram
  ────────────────────────────
  **DATAGRAMS AND THEIR USERS.**

  The layer puts a header before what a user sends and reads it back on the
  other side, and the bridge of a user regroups the octets for the user's
  width.  Whatever the widths are, a datagram is the same before and after:
  its ports, its length, and beats that carry its octets.

  Main statements:

      ofFields_fields     — the header is read back
      ofUser_ofBytes      — what a user sends
      toUser_eq           — what a user receives
      transmitNext_sends  — a datagram on its way to the IP layer
      bridge_delivers     — a datagram in the pipe of its user
-/
import NetBoard.Proofs.Beat.Stride
import NetBoard.Proofs.Crossbar
import NetBoard.Proofs.Header.Stages
import NetBoard.Proofs.Pipe
import NetBoard.Udp.Layer

namespace NetBoard.Udp

theorem header_sound : header.Sound := by decide

/-- A user reads the octets that a datagram was made of. -/
theorem UserPacket.bytes_ofBytes {width : Nat} (hw : 0 < width) (h8 : width ≤ 8) (ip : Ipv4)
    (srcPort dstPort : UInt16) (payload : Bytes) :
    (ofBytes ip srcPort dstPort payload width).bytes width = payload := by
  unfold ofBytes bytes
  rw [Beat.toBytes_ofBytes hw h8]
  exact List.take_length

/-! ## §1. The header of a datagram. -/

namespace Packet

/-- Header and payload. -/
def octets (p : Packet) : Bytes := header.encode p.fields ++ p.payload

theorem length_octets (p : Packet) : p.octets.length = headerLength + p.payload.length := by
  rw [octets, List.length_append, Header.length_encode header_sound]
  rfl

/-- The IP datagram that carries it. -/
def carried (p : Packet) : Ip.Packet := ⟨p.ip, protocol, p.octets⟩

theorem length_carried (p : Packet) :
    p.carried.payload.length = headerLength + p.payload.length := p.length_octets

/-- A payload that fits a datagram fits the IP datagram with its header. -/
theorem length_carried_le {p : Packet} (hsize : p.payload.length ≤ maxPayloadLength) :
    p.carried.payload.length ≤ Ip.maxPayloadLength := by
  rw [length_carried]
  unfold maxPayloadLength Ip.maxPayloadLength Ip.headerLength headerLength at *
  omega

/-- A datagram is read back from its header and payload, under the address it came from. -/
theorem ofFields_fields (p : Packet) (hsize : p.payload.length ≤ maxPayloadLength) (ip : Ipv4) :
    ofFields ip (header.decode (header.encode p.fields)) p.payload = .ok { p with ip } := by
  have hsrc : (⟨"src_port", 0, 0, 16⟩ : Header.Field) ∈ header.fields := by decide
  have hdst : (⟨"dst_port", 2, 0, 16⟩ : Header.Field) ∈ header.fields := by decide
  have hlength : (⟨"length", 4, 0, 16⟩ : Header.Field) ∈ header.fields := by decide
  have hgetsrc : p.fields.get "src_port" = p.srcPort.toNat := by
    simp [fields, Fields.get_set_of_ne]
  have hgetdst : p.fields.get "dst_port" = p.dstPort.toNat := by
    simp [fields, Fields.get_set_of_ne]
  have hgetlength : p.fields.get "length" = p.payload.length + headerLength := by
    simp [fields, Fields.get_set_of_ne]
  have hfits : p.payload.length + headerLength < 2 ^ 16 := by
    unfold maxPayloadLength Ip.maxPayloadLength Ip.headerLength headerLength at *
    omega
  have hreadsrc := Header.get_decode_encode_of_lt header_sound hsrc hgetsrc p.srcPort.toNat_lt
  have hreaddst := Header.get_decode_encode_of_lt header_sound hdst hgetdst p.dstPort.toNat_lt
  have hreadlength := Header.get_decode_encode_of_lt header_sound hlength hgetlength hfits
  unfold ofFields
  dsimp only
  rw [hreadlength, hreadsrc, hreaddst, if_neg (by omega), Nat.add_sub_cancel,
    List.take_length, UInt16.ofNat_toNat, UInt16.ofNat_toNat]

end Packet

/-! ## §2. A user's width. -/

namespace Bridge

variable {b : Bridge}

/-- Both widths are supported. -/
def Formed (b : Bridge) : Prop := SupportedWidth b.stride.source ∧ SupportedWidth b.stride.target

/-- What a user sends as octets on its own width is sent as these octets. -/
theorem ofUser_ofBytes (hb : b.Formed) (ip : Ipv4) (srcPort dstPort : UInt16) (payload : Bytes) :
    b.ofUser (UserPacket.ofBytes ip srcPort dstPort payload b.stride.target) =
      ⟨ip, srcPort, dstPort, payload⟩ := by
  obtain ⟨hsource, htarget⟩ := hb
  have hbytes : Beat.toBytes b.stride.source
      (b.stride.reverse.convert (Beat.ofBytes b.stride.target payload)) = payload :=
    (Stride.toBytes_convert (s := b.stride.reverse) hsource.fits _).trans
      (Beat.toBytes_ofBytes htarget.pos htarget.le_eight payload)
  unfold ofUser UserPacket.ofBytes
  dsimp only
  rw [hbytes, List.take_length]

/-- What a user receives carries the octets on the user's own width. -/
theorem toUser_eq (hb : b.Formed) (p : Packet) :
    b.toUser p = UserPacket.ofBytes p.ip p.srcPort p.dstPort p.payload b.stride.target := by
  have hdata : b.stride.convert (Beat.ofBytes b.stride.source p.payload) =
      Beat.ofBytes b.stride.target p.payload :=
    Stride.convert_ofBytes hb.1.fits p.payload
  unfold toUser UserPacket.ofBytes
  rw [hdata]

namespace Station

variable (s : Bridge.Station)

/-- Sending leaves alone what the user receives, whose port it is, and its widths. -/
theorem collect_frame :
    s.collect.state.bridge.user.inbound = s.bridge.user.inbound ∧
      s.collect.state.bridge.port = s.bridge.port ∧
      s.collect.state.bridge.stride = s.bridge.stride := by
  have hnext : ∀ s : Bridge.Station,
      s.collectNext.state.bridge.user.inbound = s.bridge.user.inbound ∧
        s.collectNext.state.bridge.port = s.bridge.port ∧
        s.collectNext.state.bridge.stride = s.bridge.stride := by
    intro s
    unfold collectNext
    cases s.bridge.user.outbound.take with
    | none => exact ⟨rfl, rfl, rfl⟩
    | some taken => exact ⟨rfl, rfl, rfl⟩
  unfold collect
  cases hheld : s.bridge.heldOut with
  | none => exact hnext s
  | some packet =>
    dsimp only
    generalize flush (some packet) s.link.outbound = flushed
    obtain ⟨left, heldOut, outbound⟩ := flushed
    cases left with
    | false => exact ⟨rfl, rfl, rfl⟩
    | true =>
      exact hnext ⟨{ s.bridge with heldOut }, { s.link with outbound }⟩

/-- So does receiving but for what the user receives. -/
theorem deliver_frame :
    s.deliver.state.bridge.port = s.bridge.port ∧
      s.deliver.state.bridge.stride = s.bridge.stride := by
  have hnext : ∀ s : Bridge.Station, s.deliverNext.state.bridge.port = s.bridge.port ∧
      s.deliverNext.state.bridge.stride = s.bridge.stride := by
    intro s
    unfold deliverNext
    cases s.link.inbound.take with
    | none => exact ⟨rfl, rfl⟩
    | some taken => exact ⟨rfl, rfl⟩
  unfold deliver
  cases hheld : s.bridge.heldIn with
  | none => exact hnext s
  | some packet =>
    dsimp only
    generalize flush (some packet) s.bridge.user.inbound = flushed
    obtain ⟨left, heldIn, inbound⟩ := flushed
    cases left with
    | false => exact ⟨rfl, rfl⟩
    | true =>
      exact hnext ⟨{ s.bridge with heldIn, user := { s.bridge.user with inbound } }, s.link⟩

/-- A bridge stays at its port. -/
theorem step_port : s.step.state.bridge.port = s.bridge.port := by
  rw [step, Outcome.state_andThen, (collect_frame _).2.1, (deliver_frame _).1]

/-- It keeps its widths. -/
theorem step_stride : s.step.state.bridge.stride = s.bridge.stride := by
  rw [step, Outcome.state_andThen, (collect_frame _).2.2, (deliver_frame _).2]

/-- The user's next datagram leaves for the layer. -/
theorem collectNext_sends {s : Bridge.Station} {packet : UserPacket} {fromUser : Pipe UserPacket}
    (hnext : s.bridge.user.outbound.take = some (packet, fromUser)) :
    (s.collectNext.state.bridge.heldOut, s.collectNext.state.link.outbound) =
      sendOrHold (s.bridge.ofUser packet) s.link.outbound := by
  unfold collectNext
  rw [hnext]
  rfl

/-- With nothing held, a step passes the next datagram to the user. -/
theorem step_delivers {s : Bridge.Station} (hheld : s.bridge.heldIn = none) {packet : Packet}
    {inbound : Pipe Packet} (hnext : s.link.inbound.take = some (packet, inbound)) :
    s.step.state.bridge.user.inbound =
      (sendOrHold (s.bridge.toUser packet) s.bridge.user.inbound).2 := by
  rw [step, Outcome.state_andThen, (collect_frame _).1]
  unfold deliver deliverNext
  rw [hheld, hnext]
  rfl

end Station
end Bridge

/-! ## §3. The layer. -/

namespace Layer

/-- The stages of the layer are those of its header, and all widths are supported. -/
structure Formed (l : Layer) : Prop where
  packetizer : l.packetizer.Writes header
  depacketizer : l.depacketizer.Reads header
  bridges : ∀ b ∈ l.bridges, b.Formed

theorem formed_make {width : Nat} (hw : SupportedWidth width) (depth : Nat) :
    (make width depth).Formed :=
  ⟨⟨rfl, hw⟩, ⟨rfl, hw⟩, fun _ hb => absurd hb List.not_mem_nil⟩

/-- Opening a port, or failing to, keeps it so. -/
theorem formed_openPort {l : Layer} (hl : l.Formed) (port : UInt16) (width : Nat) :
    (l.openPort port width).layer.Formed := by
  unfold openPort
  -- each of the three checks may fail, and leaves the bridges as they were
  cases hwidth : checkWidth width with
  | error fault => exact hl
  | ok user =>
    obtain ⟨huser, rfl⟩ := checkWidth_eq_ok_iff.1 hwidth
    dsimp only
    cases l.crossbar.register port with
    | error fault => exact hl
    | ok registered =>
      dsimp only
      cases hsource : checkWidth l.width with
      | error fault =>
        simp only [Stride.make?, hsource, hwidth]
        exact ⟨hl.packetizer, hl.depacketizer, hl.bridges⟩
      | ok source =>
        obtain ⟨hlayer, rfl⟩ := checkWidth_eq_ok_iff.1 hsource
        simp only [Stride.make?, hsource, hwidth]
        refine ⟨hl.packetizer, hl.depacketizer, ?_⟩
        intro b hb
        rcases List.mem_append.1 hb with hold | hnew
        · exact hl.bridges b hold
        · rw [List.mem_singleton.1 hnew]
          exact ⟨hlayer, huser⟩

/-- Exchanging the pipes of a user keeps the bridges as they are. -/
theorem Formed.setUser {l : Layer} (hl : l.Formed) (port : UInt16) (user : Link UserPacket) :
    (l.setUser port user).Formed := by
  refine ⟨hl.packetizer, hl.depacketizer, fun b hb => ?_⟩
  obtain ⟨old, hold, rfl⟩ := List.mem_map.1 hb
  have hformed := hl.bridges old hold
  split
  · exact ⟨hformed.1, hformed.2⟩
  · exact hformed

/-- What the user of a port has received. -/
def received? (l : Layer) (port : UInt16) : Option (Pipe UserPacket) :=
  (l.user? port).map (·.inbound)

/-- The step of a list of bridges finds each port's first bridge as it was, and
what was given to the port. -/
theorem stepBridges_find {port : UInt16} {b : Bridge} {inbound : Pipe Packet} :
    ∀ (bridges : List Bridge) (xb : Crossbar Packet),
      bridges.find? (·.port == port) = some b → xb.inbound? port = some inbound →
      ∃ link : Link Packet, link.inbound = inbound ∧
        (stepBridges bridges xb).state.1.find? (·.port == port) =
          some (Bridge.Station.step ⟨b, link⟩).state.bridge := by
  intro bridges
  induction bridges with
  | nil =>
    intro xb hfind _
    cases hfind
  | cons head rest ih =>
    intro xb hfind hinbound
    by_cases hport : head.port = port
    · -- the bridge itself: it is the one that steps
      rw [List.find?_cons_of_pos (by simpa using hport), Option.some_inj] at hfind
      subst hfind hport
      obtain ⟨link, hlink, hin⟩ := Option.map_eq_some_iff.1 hinbound
      refine ⟨link, hin, ?_⟩
      unfold stepBridges
      rw [hlink]
      exact List.find?_cons_of_pos (by simpa using Bridge.Station.step_port ⟨head, link⟩)
    · -- another one: it touches the pipes of its own port only
      rw [List.find?_cons_of_neg (by simpa using hport)] at hfind
      unfold stepBridges
      cases hlink : xb.link? head.port with
      | none =>
        obtain ⟨link, hin, hstep⟩ := ih xb hfind hinbound
        refine ⟨link, hin, ?_⟩
        rw [← hstep]
        exact List.find?_cons_of_neg (by simpa using hport)
      | some other =>
        have hapart := xb.inbound?_setLink_of_ne
          (Bridge.Station.step ⟨head, other⟩).state.link (Ne.symm hport)
        obtain ⟨link, hin, hstep⟩ := ih _ hfind (hapart.trans hinbound)
        refine ⟨link, hin, ?_⟩
        rw [← hstep]
        exact List.find?_cons_of_neg
          (by simpa [Bridge.Station.step_port ⟨head, other⟩] using hport)

end Layer

namespace Station

variable {s : Station}

/-- The next datagram leaves for the IP layer behind its header. -/
theorem transmitNext_sends (hs : s.layer.Formed) {packet : Packet} {outbox : Pipe Packet}
    (hnext : s.layer.crossbar.outbox.take = some (packet, outbox))
    (hsize : packet.payload.length ≤ maxPayloadLength) :
    (s.transmitNext.state.layer.heldOut, s.transmitNext.state.link.outbound) =
      sendOrHold packet.carried s.link.outbound := by
  have hoctets := hs.packetizer.octets header_sound packet.fields packet.payload
  unfold transmitNext
  dsimp only
  rw [hnext]
  dsimp only
  rw [if_neg (Nat.not_lt.2 hsize), hoctets]
  rfl

/-- From its octets a datagram joins those to be dispatched. -/
theorem accept_octets (hs : s.layer.Formed) {packet : Packet}
    (hsize : packet.payload.length ≤ maxPayloadLength) (ip : Ipv4) (protocol : UInt8) :
    (s.accept ⟨ip, protocol, packet.octets⟩).state.layer.bridges = s.layer.bridges ∧
      (s.accept ⟨ip, protocol, packet.octets⟩).state.layer.crossbar =
        { s.layer.crossbar with
          inbox := (sendOrHold { packet with ip } s.layer.crossbar.inbox).2 } := by
  have hlen : (header.encode packet.fields).length = header.length :=
    Header.length_encode header_sound _
  have hpacket : (s.layer.depacketizer.depacketize packet.octets).2 =
      some (header.decode (header.encode packet.fields), packet.payload) :=
    hs.depacketizer.packet_append (by decide) hlen packet.payload
  unfold accept
  dsimp only
  rw [hpacket]
  dsimp only
  rw [packet.ofFields_fields hsize]
  exact ⟨rfl, rfl⟩

/-- A datagram to be dispatched is given to the user of its port: the crossbar
hands it to the bridge, and the bridge to the user. -/
theorem bridge_delivers {packet : Packet} {inbox : Pipe Packet} {b : Bridge} {link : Link Packet}
    (hheld : s.layer.crossbar.heldIn = none)
    (hnext : s.layer.crossbar.inbox.take = some (packet, inbox))
    (hlink : s.layer.crossbar.link? packet.dstPort = some link) (hidle : link.inbound.Idle)
    (hbridge : s.layer.bridges.find? (·.port == packet.dstPort) = some b)
    (hfree : b.heldIn = none) :
    (s.exchange.andThen bridge).state.layer.received? packet.dstPort =
      some (sendOrHold (b.toUser packet) b.user.inbound).2 := by
  have hgiven : s.exchange.state.layer.crossbar.inbound? packet.dstPort =
      some (link.inbound.only packet) := by
    have hstep := Crossbar.step_link hheld hnext hlink
    rw [hidle.sendOrHold] at hstep
    exact hstep
  obtain ⟨given, hinbound, hfind⟩ :=
    Layer.stepBridges_find s.exchange.state.layer.bridges _ hbridge hgiven
  have huser := Bridge.Station.step_delivers (s := ⟨b, given⟩) hfree
    (by rw [hinbound]; exact link.inbound.take_only packet)
  rw [Outcome.state_andThen]
  show (((Layer.stepBridges s.exchange.state.layer.bridges
    s.exchange.state.layer.crossbar).state.1.find? (·.port == packet.dstPort)).map (·.user)).map
      (·.inbound) = _
  rw [hfind, Option.map_some, Option.map_some, huser]

end Station
end NetBoard.Udp
