/-
  NetBoard.Proofs.Datapath.Transport
  ──────────────────────────────────
  **DATAGRAMS OF USERS ON ANY DATAPATH.**

  Besides the stages of its header the UDP layer has a bridge for each user,
  which regroups beats if the user has another width than the layer, and passes
  them on as they are if not.  Either way the user receives the octets on its
  own width, and what it sends are the octets up to the end of the packet in
  its beats, cut at its count, whether beats and count fit together or not.

  Main definitions:

      Bridge.on, Layer.on         — the bridge and the layer on a datapath

  Main statements:

      data_toUser_on              — what a user receives
      payload_ofUser_on           — what a user sends
      Bridge.Station.step_steady  — one step of a bridge
      Layer.openPort_on           — a new user
      Station.step_oblivious      — one step of the layer
-/
import NetBoard.Proofs.Datapath.Oblivious
import NetBoard.Proofs.Udp.Datagram

namespace NetBoard.Udp

open Outcome (Alike Oblivious)

/-! ## §1. Bridges. -/

namespace Bridge

/-- The bridge in a layer of another width. -/
def on (b : Bridge) (width : BusWidth) : Bridge := { b with stride := ⟨width, b.stride.target⟩ }

variable (b : Bridge) (width : BusWidth)

/-- What a user receives has the user's width. -/
theorem data_toUser_on (p : Packet) :
    ((b.on width).toUser p).data = Beat.ofBytes b.stride.target p.payload :=
  Stride.convert_ofBytes (s := (b.on width).stride) width.2.fits p.payload

/-- What a user sends are the octets of the first packet in the beats, whatever
beats those are, cut at the length the user counted. -/
theorem payload_ofUser_on (p : UserPacket) :
    ((b.on width).ofUser p).payload = (Beat.toBytes b.stride.target p.data).take p.length := by
  have hbytes := Stride.toBytes_convert (s := (b.on width).stride.reverse) width.2.fits p.data
  exact congrArg (List.take p.length) hbytes

/-- A datagram is given to its user alike, whatever the layer's width. -/
theorem toUser_on (v w : BusWidth) (p : Packet) : (b.on v).toUser p = (b.on w).toUser p := by
  have hdata := (b.data_toUser_on v p).trans (b.data_toUser_on w p).symm
  unfold toUser at hdata ⊢
  dsimp only at hdata
  rw [hdata]

/-- A user's packet is taken alike, whatever the layer's width. -/
theorem ofUser_on (v w : BusWidth) (p : UserPacket) : (b.on v).ofUser p = (b.on w).ofUser p := by
  have hpayload := (b.payload_ofUser_on v p).trans (b.payload_ofUser_on w p).symm
  unfold ofUser at hpayload ⊢
  dsimp only at hpayload
  rw [hpayload]

namespace Station

/-- The bridge of the station in a layer of another width. -/
def on (s : Bridge.Station) (width : BusWidth) : Bridge.Station :=
  { s with bridge := s.bridge.on width }

theorem deliverNext_steady : Outcome.Steady on deliverNext := by
  intro s v w
  have hlink : ∀ d, (s.on d).link = s.link := fun d => rfl
  unfold deliverNext
  simp only [hlink]
  cases s.link.inbound.take with
  | none => rfl
  | some taken =>
    obtain ⟨packet, inbound⟩ := taken
    dsimp only
    rw [show (s.on w).bridge.toUser packet = (s.on v).bridge.toUser packet from
      s.bridge.toUser_on w v packet]
    rfl

/-- Delivery is the rest of it behind the hold. -/
theorem deliver_eq (s : Station) :
    s.deliver = Outcome.afterHeld s.bridge.heldIn s.bridge.user.inbound
      (fun heldIn inbound =>
        { s with bridge := { s.bridge with heldIn, user := { s.bridge.user with inbound } } })
      deliverNext s := by
  unfold deliver Outcome.afterHeld
  grind

theorem deliver_steady : Outcome.Steady on deliver :=
  deliverNext_steady.afterHeld (·.bridge.heldIn) (·.bridge.user.inbound)
    (fun s heldIn inbound => { s with
      bridge := { s.bridge with heldIn, user := { s.bridge.user with inbound } } }) deliver_eq

theorem collectNext_steady : Outcome.Steady on collectNext := by
  intro s v w
  have huser : ∀ d, (s.on d).bridge.user = s.bridge.user := fun d => rfl
  unfold collectNext
  simp only [huser]
  cases s.bridge.user.outbound.take with
  | none => rfl
  | some taken =>
    obtain ⟨packet, fromUser⟩ := taken
    dsimp only
    rw [show (s.on w).bridge.ofUser packet = (s.on v).bridge.ofUser packet from
      s.bridge.ofUser_on w v packet]
    rfl

/-- So is the collection behind its own. -/
theorem collect_eq (s : Station) :
    s.collect = Outcome.afterHeld s.bridge.heldOut s.link.outbound
      (fun heldOut outbound =>
        { bridge := { s.bridge with heldOut }, link := { s.link with outbound } })
      collectNext s := by
  unfold collect Outcome.afterHeld
  grind

theorem collect_steady : Outcome.Steady on collect :=
  collectNext_steady.afterHeld (·.bridge.heldOut) (·.link.outbound)
    (fun s heldOut outbound => {
      bridge := { s.bridge with heldOut }, link := { s.link with outbound } }) collect_eq

/-- A step of a bridge does the same in a layer of any width. -/
theorem step_steady : Outcome.Steady on step := deliver_steady.andThen collect_steady

end Station
end Bridge

/-! ## §2. Users of the layer. -/

namespace Layer

/-- What the layer has of the datapath. -/
structure Datapath where
  width : BusWidth
  stages : Stages header

/-- The layer on a datapath, its users' bridges included. -/
def on (l : Layer) (d : Datapath) : Layer :=
  { l with
    width := d.width
    packetizer := d.stages.packetizer
    depacketizer := d.stages.depacketizer
    bridges := l.bridges.map (·.on d.width) }

variable (l : Layer)

/-- The bridges of a layer do the same whatever width it has. -/
theorem stepBridges_on (v w : BusWidth) (bridges : List Bridge) :
    ∀ xb : Crossbar Packet, stepBridges (bridges.map (·.on w)) xb =
      (stepBridges (bridges.map (·.on v)) xb).map fun (bs, xb) => (bs.map (·.on w), xb) := by
  induction bridges with
  | nil =>
    intro xb
    rfl
  | cons b rest ih =>
    intro xb
    rw [List.map_cons, List.map_cons]
    have hport : ∀ d, (b.on d).port = b.port := fun d => rfl
    unfold stepBridges
    rw [hport, hport]
    cases xb.link? b.port with
    | none =>
      dsimp only
      rw [ih xb]
      rfl
    | some link =>
      dsimp only
      rw [show Bridge.Station.step ⟨b.on w, link⟩ = _ from
        Bridge.Station.step_steady ⟨b, link⟩ v w, Outcome.state_map, ih]
      rfl

/-- A user's port is opened, or refused, in the same way on every datapath. -/
theorem openPort_on (port : UInt16) (width : Nat) :
    ∃ plain : Opening, ∀ d,
      (l.on d).openPort port width = { plain with layer := plain.layer.on d } := by
  cases hwidth : checkWidth width with
  | error fault =>
    refine ⟨{ layer := l, fault }, fun d => ?_⟩
    unfold openPort
    rw [hwidth]
  | ok w =>
    cases hregister : l.crossbar.register port with
    | error fault =>
      refine ⟨{ layer := l, fault }, fun d => ?_⟩
      unfold openPort
      rw [hwidth, show (l.on d).crossbar.register port = _ from hregister]
    | ok registered =>
      obtain ⟨crossbar, log⟩ := registered
      obtain ⟨hw, rfl⟩ := checkWidth_eq_ok_iff.1 hwidth
      let bridge : Bridge := { port, stride := ⟨w, w⟩, user := .make l.depth }
      refine ⟨{
          layer := { l with crossbar, bridges := l.bridges ++ [bridge] }
          log := log ++ [⟨Log.high, source, s!"port {port} opened, {w * 8} bits wide"⟩] },
        fun d => ?_⟩
      have hstride : Stride.make? (l.on d).width w = .ok ⟨d.width, w⟩ :=
        Stride.make?_eq_ok d.width.2 hw
      unfold openPort
      rw [hwidth, show (l.on d).crossbar.register port = _ from hregister]
      dsimp only
      rw [hstride]
      have hbridges : (l.bridges ++ [bridge]).map (·.on d.width) =
          (l.on d).bridges ++ [{ port, stride := ⟨d.width, w⟩, user := .make l.depth }] :=
        List.map_append
      dsimp only [on]
      rw [hbridges]
      rfl

/-- The users are the same on every datapath. -/
theorem user?_on (d : Datapath) (port : UInt16) : (l.on d).user? port = l.user? port := by
  unfold user?
  rw [show (l.on d).bridges = l.bridges.map (·.on d.width) from rfl, List.find?_map,
    Option.map_map]
  rfl

/-- The pipes of a user are replaced on all widths alike. -/
theorem setUser_on (d : Datapath) (port : UInt16) (user : Link UserPacket) :
    (l.on d).setUser port user = (l.setUser port user).on d := by
  have hbridges : ((l.bridges.map (·.on d.width)).map fun b =>
      if b.port == port then { b with user } else b) =
      (l.bridges.map fun b => if b.port == port then { b with user } else b).map
        (·.on d.width) := by
    rw [List.map_map, List.map_map]
    refine List.map_congr_left fun b _ => ?_
    show (if b.port == port then _ else _) = Bridge.on (if b.port == port then _ else _) d.width
    split <;> rfl
  exact congrArg (fun bridges => { l.on d with bridges }) hbridges

theorem abandon_on (d : Datapath) (port : UInt16) :
    (l.on d).abandon port = (l.abandon port).on d := by
  unfold abandon
  rw [user?_on]
  cases l.user? port with
  | none => rfl
  | some user => exact l.setUser_on d port user.abandon

end Layer

/-! ## §3. Steps of the layer. -/

namespace Station

/-- The station on a datapath. -/
def on (s : Station) (d : Layer.Datapath) : Station := { s with layer := s.layer.on d }

/-- All bridges are stepped on all widths alike. -/
theorem bridge_oblivious : Oblivious on bridge := by
  intro s
  let bitwide : BusWidth := ⟨1, Or.inl rfl⟩
  let plain := Layer.stepBridges (s.layer.bridges.map (·.on bitwide)) s.layer.crossbar
  refine ⟨plain.map fun (bridges, crossbar) =>
    { s with layer := { s.layer with bridges, crossbar } }, fun d => ⟨d, ?_⟩⟩
  show (Layer.stepBridges (s.layer.bridges.map (·.on d.width)) s.layer.crossbar).map _ = _
  rw [Layer.stepBridges_on bitwide d.width]
  rfl

theorem exchange_oblivious : Oblivious on exchange := fun s => .still s.exchange

/-- A datagram is sent alike on all widths. -/
theorem transmitNext_oblivious : Oblivious on transmitNext := by
  intro s
  cases htake : s.layer.crossbar.outbox.take with
  | none =>
    refine (Alike.idle s).reached fun d => ⟨d, ?_⟩
    unfold transmitNext
    dsimp only
    rw [show (s.on d).layer.crossbar.outbox.take = none from htake]
  | some taken =>
    obtain ⟨packet, outbox⟩ := taken
    let l := { s.layer with crossbar := { s.layer.crossbar with outbox } }
    let size := packet.payload.length
    by_cases hlong : maxPayloadLength < size
    · let stats := { l.stats with txOversize := l.stats.txOversize + 1 }
      refine (Alike.moved { s with layer := { l with stats } }
        [⟨Log.medium, Layer.source,
          s!"datagram of {size} bytes from port {packet.srcPort} is too large, dropped"⟩]
        id).reached fun d => ⟨d, ?_⟩
      unfold transmitNext
      dsimp only
      rw [show (s.on d).layer.crossbar.outbox.take = some (packet, outbox) from htake]
      exact if_pos hlong
    · let octets := header.encode packet.fields ++ packet.payload
      let out := sendOrHold ⟨packet.ip, protocol, octets⟩ s.link.outbound
      let stats := { l.stats with txDatagrams := l.stats.txDatagrams + 1 }
      refine (Alike.moved { s with
        layer := { l with heldOut := out.1, stats }
        link := { s.link with outbound := out.2 } } [] fun d : Layer.Datapath =>
          { d with stages := d.stages.sent header_sound packet.fields packet.payload }).reached
        fun d => ⟨d, ?_⟩
      unfold transmitNext
      dsimp only
      rw [show (s.on d).layer.crossbar.outbox.take = some (packet, outbox) from htake]
      dsimp only
      rw [if_neg hlong, show (s.on d).layer.packetizer = d.stages.packetizer from rfl,
        d.stages.packetize header_sound]
      rfl

/-- The sender is the rest of it behind the hold. -/
theorem transmit_eq (s : Station) :
    s.transmit = Outcome.afterHeld s.layer.heldOut s.link.outbound
      (fun heldOut outbound =>
        { layer := { s.layer with heldOut }, link := { s.link with outbound } })
      transmitNext s := by
  unfold transmit Outcome.afterHeld
  grind

theorem transmit_oblivious : Oblivious on transmit :=
  transmitNext_oblivious.afterHeld (·.layer.heldOut) (·.link.outbound)
    (fun s heldOut outbound => {
      layer := { s.layer with heldOut }, link := { s.link with outbound } }) transmit_eq

/-- A header is read from any width. -/
theorem accept_oblivious (packet : Ip.Packet) : Oblivious on (accept · packet) := by
  intro s
  let stats := { s.layer.stats with invalid := s.layer.stats.invalid + 1 }
  let invalid : Station := { s with layer := { s.layer with stats } }
  let next (d : Layer.Datapath) : Layer.Datapath :=
    { d with stages := d.stages.received (by decide) packet.payload }
  cases hsplit : header.split packet.payload with
  | none =>
    refine (Alike.moved invalid [] next).reached fun d => ⟨d, ?_⟩
    show (s.on d).accept packet = _
    unfold accept
    rw [show (s.on d).layer.depacketizer = d.stages.depacketizer from rfl,
      d.stages.depacketize (by decide), hsplit]
    rfl
  | some datagram =>
    obtain ⟨values, payload⟩ := datagram
    cases hread : Packet.ofFields packet.ip values payload with
    | error length =>
      refine (Alike.moved invalid
        [⟨Log.medium, Layer.source, s!"rx datagram dropped, bad length {length}"⟩]
        next).reached fun d => ⟨d, ?_⟩
      show (s.on d).accept packet = _
      unfold accept
      rw [show (s.on d).layer.depacketizer = d.stages.depacketizer from rfl,
        d.stages.depacketize (by decide), hsplit]
      dsimp only
      rw [hread]
      rfl
    | ok datagram =>
      let out := sendOrHold datagram s.layer.crossbar.inbox
      let stats := { s.layer.stats with rxDatagrams := s.layer.stats.rxDatagrams + 1 }
      let passed : Layer := { s.layer with
        heldIn := out.1, stats, crossbar := { s.layer.crossbar with inbox := out.2 } }
      refine (Alike.moved { s with layer := passed } [] next).reached fun d => ⟨d, ?_⟩
      show (s.on d).accept packet = _
      unfold accept
      rw [show (s.on d).layer.depacketizer = d.stages.depacketizer from rfl,
        d.stages.depacketize (by decide), hsplit]
      dsimp only
      rw [hread]
      rfl

theorem receiveNext_oblivious : Oblivious on receiveNext := by
  intro s
  have hlink : ∀ d, (s.on d).link = s.link := fun d => rfl
  unfold receiveNext
  simp only [hlink]
  cases s.link.inbound.take with
  | none => exact .idle s
  | some taken =>
    obtain ⟨packet, inbound⟩ := taken
    exact accept_oblivious packet { s with link := { s.link with inbound } }

/-- The receiver is the rest of it behind the hold. -/
theorem receive_eq (s : Station) :
    s.receive = Outcome.afterHeld s.layer.heldIn s.layer.crossbar.inbox
      (fun heldIn inbox =>
        { s with layer := { s.layer with heldIn, crossbar := { s.layer.crossbar with inbox } } })
      receiveNext s := by
  unfold receive Outcome.afterHeld
  grind

theorem receive_oblivious : Oblivious on receive :=
  receiveNext_oblivious.afterHeld (·.layer.heldIn) (·.layer.crossbar.inbox)
    (fun s heldIn inbox => { s with
      layer := { s.layer with heldIn, crossbar := { s.layer.crossbar with inbox } } }) receive_eq

/-- A step of the layer does the same on every datapath. -/
theorem step_oblivious : Oblivious on step :=
  ((bridge_oblivious.andThen exchange_oblivious).andThen transmit_oblivious).andThen
    receive_oblivious

end Station

end NetBoard.Udp
