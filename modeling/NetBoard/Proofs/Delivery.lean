/-
  NetBoard.Proofs.Delivery
  ────────────────────────
  **FROM USER TO USER.**

  One station sends a user's datagram down through its layers, another one
  takes what is on the wire up through its own.  Every header that is put on
  is taken off again, every change of width is undone, and of the two lengths
  in the headers each one cuts off what was added behind it.  So the other
  user gets the datagram as it was, under the sender's address — unless it was
  cut into fragments, of which none gets further than the IP layer.

  Main definitions:

      Sender.emit        — the octet strings on the wire for a datagram
      Receiver.receive   — a station after an octet string from the wire

  Main statements:

      Sender.emit_eq            — what they are
      Receiver.climb_whole      — a datagram in one frame reaches its user
      Receiver.receive_part     — a fragment is counted, and that is all
      datagram_end_to_end       — both sides together
-/
import NetBoard.Proofs.Ethernet.Wire
import NetBoard.Proofs.Ip.Datagram
import NetBoard.Proofs.Udp.Datagram

namespace NetBoard

open Ethernet (Frame Mac)

/-! ## §1. The sender. -/

/-- A user's port with the layers below it. -/
structure Sender where
  port : Udp.Bridge
  udp : Udp.Layer
  localIp : Ipv4
  ip : Ip.Layer
  mac : Mac
  deriving Repr, DecidableEq, Inhabited

namespace Sender

/-- All stages are those of their layers, on buses of supported widths. -/
structure Formed (s : Sender) : Prop where
  port : s.port.Formed
  udp : s.udp.Formed
  ip : s.ip.Formed
  mac : s.mac.Formed

/-- The bridge with this datagram as the next of its user. -/
def asking (s : Sender) (packet : Udp.UserPacket) : Udp.Bridge :=
  { s.port with user := { s.port.user with outbound := s.port.user.outbound.only packet } }

/-- The datagrams the bridge then passes on. -/
def collected (s : Sender) (packet : Udp.UserPacket) : List Udp.Packet :=
  (Udp.Bridge.Station.collectNext ⟨s.asking packet, .make s.udp.depth⟩).state.link.outbound.items

/-- The UDP layer with this datagram as its next. -/
def loaded (s : Sender) (packet : Udp.Packet) : Udp.Layer :=
  { s.udp with crossbar := { s.udp.crossbar with outbox := s.udp.crossbar.outbox.only packet } }

/-- The IP datagrams the layer then sends. -/
def datagrams (s : Sender) (packet : Udp.Packet) : List Ip.Packet :=
  (Udp.Station.transmitNext ⟨s.loaded packet, .make s.udp.depth⟩).state.link.outbound.items

/-- The frames into which the IP layer cuts a datagram for a station. -/
def frames (s : Sender) (target : MacAddress) (packet : Ip.Packet) : List Frame :=
  match (s.ip.fragment s.localIp packet target).1.sending with
  | .send fragments => fragments
  | _ => []

/-- The MAC with this frame as its next, the gap over and the wire free. -/
def due (mac : Mac) (frame : Frame) : Mac :=
  { mac with
    gap := { mac.gap with left := 0 }
    crossbar := { mac.crossbar with outbox := mac.crossbar.outbox.only frame }
    wireOut := .make mac.crossbar.depth }

/-- What the MAC sends when one frame after the other becomes due. -/
def images (mac : Mac) : List Frame → List Bytes
  | [] => []
  | frame :: rest =>
    let mac := (due mac frame).transmitNext.state
    mac.wireOut.items ++ images mac rest

/-- What is on the wire for a user's datagram to a station. -/
def emit (s : Sender) (target : MacAddress) (packet : Udp.UserPacket) : List Bytes :=
  images s.mac (((s.collected packet).flatMap s.datagrams).flatMap (s.frames target))

/-- Every frame is sent as it stands on the wire. -/
theorem images_eq {mac : Mac} (hm : mac.Formed) (fs : List Frame) :
    images mac fs = fs.map (Frame.onWire mac.bareWire) := by
  induction fs generalizing mac with
  | nil => rfl
  | cons frame rest ih =>
    have hdue : (due mac frame).Formed :=
      ⟨hm.packetizer, hm.depacketizer, hm.preambler, hm.deambler⟩
    obtain ⟨hsent, hnext, hwire⟩ := Mac.transmitNext_frame hdue rfl (Pipe.take_only _ frame)
    have halone := (Pipe.idle_make mac.crossbar.depth).sendOrHold (frame.onWire mac.bareWire)
    have hitems : (due mac frame).transmitNext.state.wireOut.items = [frame.onWire mac.bareWire] :=
      congrArg (fun sent => sent.2.items) (hsent.trans halone)
    show (due mac frame).transmitNext.state.wireOut.items ++
      images (due mac frame).transmitNext.state rest = _
    rw [hitems, ih hnext, hwire, List.map_cons]
    rfl

theorem collected_eq (s : Sender) (packet : Udp.UserPacket) :
    s.collected packet = [s.port.ofUser packet] := by
  have hsent := Udp.Bridge.Station.collectNext_sends
    (s := ⟨s.asking packet, .make s.udp.depth⟩) (Pipe.take_only _ packet)
  have halone := (Pipe.idle_make s.udp.depth).sendOrHold (s.port.ofUser packet)
  exact congrArg (fun sent => sent.2.items) (hsent.trans halone)

theorem datagrams_eq {s : Sender} (hs : s.Formed) {packet : Udp.Packet}
    (hsize : packet.payload.length ≤ Udp.maxPayloadLength) :
    s.datagrams packet = [packet.carried] := by
  have hloaded : (s.loaded packet).Formed :=
    ⟨hs.udp.packetizer, hs.udp.depacketizer, hs.udp.bridges⟩
  have hsent := Udp.Station.transmitNext_sends (s := ⟨s.loaded packet, .make s.udp.depth⟩)
    hloaded (Pipe.take_only _ packet) hsize
  have halone := (Pipe.idle_make s.udp.depth).sendOrHold packet.carried
  exact congrArg (fun sent => sent.2.items) (hsent.trans halone)

/-- What a user sends, written as octets on the user's width. -/
def fromUser (s : Sender) (packet : Udp.Packet) : Udp.UserPacket :=
  .ofBytes packet.ip packet.srcPort packet.dstPort packet.payload s.port.stride.target

/-- A user's datagram is carried by one IP datagram, cut into frames. -/
theorem emit_eq {s : Sender} (hs : s.Formed) (target : MacAddress) {packet : Udp.Packet}
    (hsize : packet.payload.length ≤ Udp.maxPayloadLength) :
    s.emit target (s.fromUser packet) =
      (s.ip.frames s.localIp packet.carried target).map (Frame.onWire s.mac.bareWire) := by
  have hframes : s.frames target packet.carried =
      s.ip.frames s.localIp packet.carried target := by
    unfold frames
    rw [Ip.Layer.fragment_sending hs.ip]
  have hcollected : s.collected (s.fromUser packet) = [packet] := by
    rw [collected_eq, fromUser, Udp.Bridge.ofUser_ofBytes hs.port]
  unfold emit
  rw [hcollected, List.flatMap_singleton, datagrams_eq hs hsize, List.flatMap_singleton, hframes,
    images_eq hs.mac]

end Sender

/-! ## §2. The receiver. -/

/-- The layers of a station above the wire, with the users' ports. -/
structure Receiver where
  mac : Mac
  localIp : Ipv4
  ip : Ip.Layer
  udp : Udp.Layer
  deriving Repr, DecidableEq, Inhabited

namespace Receiver

/-- All stages are those of their layers, on buses of supported widths. -/
structure Formed (r : Receiver) : Prop where
  mac : r.mac.Formed
  ip : r.ip.Formed
  udp : r.udp.Formed

/-- A datagram of the IP layer goes up: it is checked, dispatched to its port,
and passed to the user. -/
def deliver (r : Receiver) (packet : Ip.Packet) : Receiver :=
  let s : Udp.Station := ⟨r.udp, .make r.udp.depth⟩
  { r with
    udp := (((s.accept packet).andThen Udp.Station.exchange).andThen Udp.Station.bridge).state.layer }

/-- A frame of the MAC goes up: the IP layer reads it, and what it takes goes on. -/
def climb (r : Receiver) (frame : Frame) : Receiver :=
  match r.ip.accept r.localIp frame.payload with
  | (ip, none, _) => { r with ip }
  | (ip, some packet, _) => { r with ip }.deliver packet

/-- The station after an octet string from the wire. -/
def receive (r : Receiver) (bs : Bytes) : Receiver :=
  match r.mac.accept bs with
  | (mac, none, _) => { r with mac }
  | (mac, some frame, _) => { r with mac }.climb frame

/-- A port is open for a user, and nothing is before the next datagram on its
way from the IP layer to the user. -/
structure Ready (r : Receiver) (port : UInt16) (b : Udp.Bridge) : Prop where
  inbox : r.udp.crossbar.inbox.Idle
  dispatched : r.udp.crossbar.heldIn = none
  registered : ∃ link, r.udp.crossbar.link? port = some link ∧ link.inbound.Idle
  opened : r.udp.bridges.find? (·.port == port) = some b
  passed : b.heldIn = none
  listening : b.user.inbound.closed = false
  room : b.user.inbound.hasRoom = true

/-- What is ready is in the layer of the ports. -/
theorem Ready.of_udp_eq {r below : Receiver} {port : UInt16} {b : Udp.Bridge}
    (hready : r.Ready port b) (hudp : below.udp = r.udp) : below.Ready port b := by
  obtain ⟨hinbox, hdispatched, hregistered, hopened, hpassed, hlistening, hroom⟩ := hready
  rw [← hudp] at hinbox hdispatched hregistered hopened
  exact ⟨hinbox, hdispatched, hregistered, hopened, hpassed, hlistening, hroom⟩

/-- Datagrams for this address are received. -/
def Hears (r : Receiver) (ip : Ipv4) : Prop := r.ip.promiscuous = true ∨ r.localIp = ip

variable {r : Receiver}

/-! ## §3. Whole datagrams. -/

/-- A datagram of the IP layer reaches the user of its port. -/
theorem deliver_octets (hr : r.Formed) {b : Udp.Bridge} {ip : Ipv4} {packet : Udp.Packet}
    (hready : r.Ready packet.dstPort b) (hsize : packet.payload.length ≤ Udp.maxPayloadLength) :
    (r.deliver ⟨ip, Udp.protocol, packet.octets⟩).udp.received? packet.dstPort =
      some { b.user.inbound with
        items := b.user.inbound.items ++
          [.ofBytes ip packet.srcPort packet.dstPort packet.payload b.stride.target] } := by
  let s : Udp.Station := ⟨r.udp, .make r.udp.depth⟩
  let accepted := (s.accept ⟨ip, Udp.protocol, packet.octets⟩).state
  obtain ⟨hbridges, hcrossbar⟩ := Udp.Station.accept_octets (s := s) hr.udp hsize ip Udp.protocol
  -- the inbox was idle, so the datagram is the one that is dispatched next
  rw [hready.inbox.sendOrHold] at hcrossbar
  obtain ⟨link, hlink, hidle⟩ := hready.registered
  have hheld : accepted.layer.crossbar.heldIn = none := by
    rw [hcrossbar]
    exact hready.dispatched
  have hnext : accepted.layer.crossbar.inbox.take =
      some ({ packet with ip }, { r.udp.crossbar.inbox with items := [] }) := by
    rw [hcrossbar]
    exact Pipe.take_only _ _
  have hport : accepted.layer.crossbar.link? packet.dstPort = some link := by
    rw [hcrossbar]
    exact hlink
  have hopened : accepted.layer.bridges.find? (·.port == packet.dstPort) = some b := by
    rw [hbridges]
    exact hready.opened
  have hformed : b.Formed := hr.udp.bridges b (List.mem_of_find?_eq_some hready.opened)
  have hgiven := Udp.Station.bridge_delivers hheld hnext hport hidle hopened hready.passed
  rw [Udp.Bridge.toUser_eq hformed, sendOrHold_of_room hready.listening hready.room] at hgiven
  exact hgiven

/-- A datagram in one fragment, whatever the padding behind it, reaches its user. -/
theorem climb_whole (packet : Udp.Packet) (hr : r.Formed) (hhears : r.Hears packet.ip)
    {b : Udp.Bridge} (hready : r.Ready packet.dstPort b)
    (hsize : packet.payload.length ≤ Udp.maxPayloadLength) {sender : Ipv4} {frame : Frame}
    {identification : UInt16} {padding : Bytes}
    (hpayload : frame.payload = packet.carried.fragmentOctets sender identification 0 false
      packet.carried.payload ++ padding) :
    (r.climb frame).udp.received? packet.dstPort =
        some { b.user.inbound with
          items := b.user.inbound.items ++
            [.ofBytes sender packet.srcPort packet.dstPort packet.payload b.stride.target] } ∧
      (r.climb frame).mac = r.mac ∧ (r.climb frame).ip.stats = r.ip.stats := by
  obtain ⟨depacketizer, hdepacketizer, haccept⟩ := Ip.Layer.accept_whole packet.carried sender
    identification hr.ip hhears (Udp.Packet.length_carried_le hsize) padding
  let above : Receiver := { r with ip := { r.ip with depacketizer } }
  have habove : above.Formed := ⟨hr.mac, ⟨hr.ip.packetizer, hdepacketizer⟩, hr.udp⟩
  have hclimb : r.climb frame = above.deliver ⟨sender, Udp.protocol, packet.octets⟩ := by
    unfold climb
    rw [hpayload, haccept]
    rfl
  rw [hclimb]
  exact ⟨deliver_octets habove (hready.of_udp_eq rfl) hsize, rfl, rfl⟩

/-- What a MAC has put on the wire passes the MAC of the receiver uncounted:
the padded frame goes up. -/
theorem receive_onWire (hr : r.Formed) (f : Frame) :
    ∃ mac : Mac, mac.Formed ∧ mac.bareWire = r.mac.bareWire ∧ mac.stats = r.mac.stats ∧
      (r.mac.accept (f.onWire r.mac.bareWire)).2 = (some f.padded, []) ∧
      r.receive (f.onWire r.mac.bareWire) = ({ r with mac } : Receiver).climb f.padded := by
  obtain ⟨deambler, depacketizer, hdeambler, hdepacketizer, haccept⟩ :=
    Mac.accept_onWire hr.mac f
  have hmac : ({ r.mac with deambler, depacketizer } : Mac).Formed :=
    ⟨hr.mac.packetizer, hdepacketizer, hr.mac.preambler, hdeambler⟩
  refine ⟨{ r.mac with deambler, depacketizer }, hmac, rfl, rfl, ?_, ?_⟩
  · rw [haccept]
  · unfold receive
    rw [haccept]

/-! ## §4. Parts of datagrams. -/

/-- The octet string holds a part of a datagram for this address. -/
def IsPart (bareWire : Bool) (ip : Ipv4) (image : Bytes) : Prop :=
  ∃ (f : Frame) (packet : Ip.Packet) (sender : Ipv4) (identification : UInt16) (offset : Nat)
    (more : Bool) (chunk : Bytes),
    image = f.onWire bareWire ∧ packet.ip = ip ∧
      f.payload = packet.fragmentOctets sender identification offset more chunk ∧
      (more = true ∨ 8 ≤ offset) ∧ chunk.length ≤ Ip.maxPayloadLength ∧ offset < 65536

/-- The octet string is a sound frame; the IP layer counts a fragment and drops
it, and nothing changes above. -/
structure Refuses (r : Receiver) (image : Bytes) : Prop where
  accepted : ∃ frame, (r.mac.accept image).2 = (some frame, [])
  mac : (r.receive image).mac.stats = r.mac.stats
  ip : (r.receive image).ip.stats =
    { r.ip.stats with fragmentsDropped := r.ip.stats.fragmentsDropped + 1 }
  udp : (r.receive image).udp = r.udp

/-- A part is refused, and the next one will be. -/
theorem receive_part (hr : r.Formed) {ip : Ipv4} (hhears : r.Hears ip) {image : Bytes}
    (hpart : IsPart r.mac.bareWire ip image) :
    r.Refuses image ∧ (r.receive image).Formed ∧ (r.receive image).Hears ip ∧
      (r.receive image).mac.bareWire = r.mac.bareWire := by
  obtain ⟨f, packet, sender, identification, offset, more, chunk, rfl, rfl, hpayload, hpart,
    hchunk, hoffset⟩ := hpart
  obtain ⟨mac, hmac, hwire, hstats, haccept, hreceive⟩ := receive_onWire hr f
  obtain ⟨depacketizer, hdepacketizer, hip⟩ := Ip.Layer.accept_part packet sender identification
    hr.ip hhears hpart hchunk hoffset
    (List.replicate (Ethernet.minPayloadLength - f.payload.length) 0)
  have hclimb : ({ r with mac } : Receiver).climb f.padded =
      { r with
        mac
        ip := { r.ip with
          depacketizer
          stats := { r.ip.stats with fragmentsDropped := r.ip.stats.fragmentsDropped + 1 } } } := by
    unfold climb
    dsimp only [Frame.padded]
    rw [← hpayload] at hip
    rw [hip]
  rw [hclimb] at hreceive
  refine ⟨⟨⟨f.padded, haccept⟩, ?_, ?_, ?_⟩, ?_, ?_, ?_⟩ <;> rw [hreceive]
  · exact hstats
  · exact ⟨hmac, ⟨hr.ip.packetizer, hdepacketizer⟩, hr.udp⟩
  · exact hhears
  · exact hwire

/-- However many parts come in, none of them gets further than the IP layer. -/
theorem receive_parts {ip : Ipv4} (images : List Bytes) :
    ∀ {r : Receiver}, r.Formed → r.Hears ip → (∀ image ∈ images, IsPart r.mac.bareWire ip image) →
      (images.foldl receive r).udp = r.udp ∧
        (images.foldl receive r).ip.stats = { r.ip.stats with
          fragmentsDropped := r.ip.stats.fragmentsDropped + images.length } := by
  induction images with
  | nil =>
    intro r _ _ _
    exact ⟨rfl, rfl⟩
  | cons image rest ih =>
    intro r hr hhears hparts
    obtain ⟨hrefuses, hformed, hhears', hwire⟩ :=
      receive_part hr hhears (hparts image (List.mem_cons_self ..))
    have hothers : ∀ other ∈ rest, IsPart (r.receive image).mac.bareWire ip other := by
      intro other hother
      rw [hwire]
      exact hparts other (List.mem_cons_of_mem _ hother)
    obtain ⟨hudp, hip⟩ := ih hformed hhears' hothers
    rw [List.foldl_cons, hudp, hip, hrefuses.udp, hrefuses.ip, List.length_cons, Nat.add_assoc,
      Nat.add_comm 1]
    exact ⟨rfl, rfl⟩

end Receiver

/-! ## §5. Both sides. -/

variable {s : Sender} {mtu : Nat} (packet : Udp.Packet)

/-- A datagram that fits is sent in one frame. -/
theorem Sender.emit_whole (hs : s.Formed) (hmtu : s.ip.fragmentSize = Ip.fragmentSize mtu)
    (target : MacAddress) (hsize : packet.payload.length ≤ Udp.maxPayloadLength)
    (hfits : Udp.headerLength + packet.payload.length ≤ Ip.fragmentSize mtu) :
    ∃ f : Frame, s.emit target (s.fromUser packet) = [f.onWire s.mac.bareWire] ∧
      f.payload = packet.carried.fragmentOctets s.localIp s.ip.identification 0 false
        packet.carried.payload := by
  have hpos : 0 < s.ip.fragmentSize := by
    rw [hmtu]
    exact Nat.lt_of_lt_of_le (by decide) (Nat.le_max_left 8 _)
  have hone : packet.carried.payload.length ≤ s.ip.fragmentSize := by
    rw [packet.length_carried, hmtu]
    exact hfits
  refine ⟨s.ip.frame target (packet.carried.fragmentOctets s.localIp s.ip.identification 0 false
    packet.carried.payload), ?_, rfl⟩
  rw [emit_eq hs target hsize, Ip.Layer.frames_of_le hpos hone, List.map_cons, List.map_nil]

/-- A datagram that does not fit is sent in parts, and in more than one. -/
theorem Sender.emit_parts (hs : s.Formed) (hmtu : s.ip.fragmentSize = Ip.fragmentSize mtu)
    (target : MacAddress) (hsize : packet.payload.length ≤ Udp.maxPayloadLength)
    (hlong : Ip.fragmentSize mtu < Udp.headerLength + packet.payload.length) :
    2 ≤ (s.emit target (s.fromUser packet)).length ∧
      ∀ image ∈ s.emit target (s.fromUser packet),
        Receiver.IsPart s.mac.bareWire packet.ip image := by
  have hunit : 8 ≤ s.ip.fragmentSize := by
    rw [hmtu]
    exact Nat.le_max_left ..
  have hmany : s.ip.fragmentSize < packet.carried.payload.length := by
    rw [packet.length_carried, hmtu]
    exact hlong
  obtain ⟨hcount, hparts⟩ := Ip.Layer.frames_of_lt hunit hmany
    (Udp.Packet.length_carried_le hsize) s.localIp target
  rw [emit_eq hs target hsize]
  constructor
  · rw [List.length_map]
    exact hcount
  · intro image himage
    obtain ⟨f, hf, rfl⟩ := List.mem_map.1 himage
    obtain ⟨offset, more, chunk, rfl, hpart, hchunk, hoffset⟩ := hparts f hf
    exact ⟨_, packet.carried, s.localIp, s.ip.identification, offset, more, chunk, rfl, rfl, rfl,
      hpart, hchunk, hoffset⟩

/-- **From user to user.**  A datagram that fits one frame reaches the user of
its port as it was sent, behind what was there already; of one that does not,
every frame is sound and every fragment is dropped. -/
theorem datagram_end_to_end {s : Sender} {r : Receiver} (hs : s.Formed) (hr : r.Formed) {mtu : Nat}
    (hmtu : s.ip.fragmentSize = Ip.fragmentSize mtu) (hwire : s.mac.bareWire = r.mac.bareWire)
    {ip : Ipv4} (hhears : r.Hears ip) {dstPort : UInt16} {b : Udp.Bridge}
    (hready : r.Ready dstPort b) (target : MacAddress) (srcPort : UInt16) {payload : Bytes}
    (hsize : payload.length ≤ 65507) :
    let images := s.emit target (.ofBytes ip srcPort dstPort payload s.port.stride.target)
    (8 + payload.length ≤ Ip.fragmentSize mtu →
      ∃ image, images = [image] ∧
        (∃ frame, (r.mac.accept image).2 = (some frame, [])) ∧
        (r.receive image).mac.stats = r.mac.stats ∧ (r.receive image).ip.stats = r.ip.stats ∧
        (r.receive image).udp.received? dstPort =
          some { b.user.inbound with
            items := b.user.inbound.items ++
              [.ofBytes s.localIp srcPort dstPort payload b.stride.target] }) ∧
    (Ip.fragmentSize mtu < 8 + payload.length →
      2 ≤ images.length ∧ (∀ image ∈ images, r.Refuses image) ∧
        (images.foldl Receiver.receive r).udp = r.udp ∧
        (images.foldl Receiver.receive r).ip.stats = { r.ip.stats with
          fragmentsDropped := r.ip.stats.fragmentsDropped + images.length }) := by
  intro images
  constructor
  · intro hfits
    obtain ⟨f, himage, hpayload⟩ :=
      Sender.emit_whole ⟨ip, srcPort, dstPort, payload⟩ hs hmtu target hsize hfits
    rw [hwire] at himage
    obtain ⟨mac, hmac, -, hstats, haccept, hreceive⟩ := Receiver.receive_onWire hr f
    have hbelow : ({ r with mac } : Receiver).Formed := ⟨hmac, hr.ip, hr.udp⟩
    -- the zeros stand behind the datagram, where the IP layer cuts them off
    have hpadded : f.padded.payload = _ ++ _ := congrArg (· ++ _) hpayload
    obtain ⟨huser, hmac', hip⟩ := Receiver.climb_whole ⟨ip, srcPort, dstPort, payload⟩ hbelow
      hhears (hready.of_udp_eq rfl) hsize hpadded
    refine ⟨_, himage, ⟨f.padded, haccept⟩, ?_, ?_, ?_⟩ <;> rw [hreceive]
    · rw [hmac']
      exact hstats
    · exact hip
    · exact huser
  · intro hlong
    obtain ⟨hcount, hparts⟩ :=
      Sender.emit_parts ⟨ip, srcPort, dstPort, payload⟩ hs hmtu target hsize hlong
    rw [hwire] at hparts
    obtain ⟨hudp, hip⟩ := Receiver.receive_parts images hr hhears hparts
    exact ⟨hcount, fun image himage => (Receiver.receive_part hr hhears (hparts image himage)).1,
      hudp, hip⟩

/-- Three octets from a user of one lane to a user of eight, over buses of four
and two lanes and a bare wire: the frame is padded, and what arrives is not. -/
theorem datagram_end_to_end_padded :
    let mac (address : MacAddress) (width : Nat) : Mac :=
      { address, bareWire := true, crossbar := .make .etherType 1, wireIn := .make 1
        wireOut := .make 1, packetizer := { header := Ethernet.header, width }
        depacketizer := { format := Ethernet.header, width }
        preambler := { header := Ethernet.Preamble.header, width }
        deambler := { format := Ethernet.Preamble.header, width }, gap := .make 12 width }
    let s : Sender :=
      { port := { port := 5000, stride := ⟨4, 1⟩, user := .make 1 }
        udp := .make 4 1, localIp := ⟨10, 0, 0, 1⟩
        ip := .make ⟨2, 0, 0, 0, 0, 1⟩ 1500 false 4 1, mac := mac ⟨2, 0, 0, 0, 0, 1⟩ 4 }
    let r : Receiver :=
      { mac := mac ⟨2, 0, 0, 0, 0, 2⟩ 2, localIp := ⟨10, 0, 0, 2⟩
        ip := .make ⟨2, 0, 0, 0, 0, 2⟩ 1500 false 2 1
        udp := ((Udp.Layer.make 2 1).openPort 6000 8).layer }
    8 + 3 ≤ Ip.fragmentSize 1500 ∧
      ∃ image, s.emit ⟨2, 0, 0, 0, 0, 2⟩ (.ofBytes ⟨10, 0, 0, 2⟩ 5000 6000 [1, 2, 3] 1) = [image] ∧
        (r.receive image).udp.received? 6000 =
          some ((Pipe.make 1).only (.ofBytes ⟨10, 0, 0, 1⟩ 5000 6000 [1, 2, 3] 8)) := by
  intro mac s r
  have hmac : ∀ (address : MacAddress) (width : Nat), SupportedWidth width →
      (mac address width).Formed :=
    fun _ _ hw => ⟨⟨rfl, hw⟩, ⟨rfl, hw⟩, ⟨rfl, hw⟩, ⟨rfl, hw⟩⟩
  have h1 : SupportedWidth 1 := Or.inl rfl
  have h2 : SupportedWidth 2 := Or.inr (Or.inl rfl)
  have h4 : SupportedWidth 4 := Or.inr (Or.inr (Or.inl rfl))
  have h8 : SupportedWidth 8 := Or.inr (Or.inr (Or.inr rfl))
  have hs : s.Formed :=
    ⟨⟨h4, h1⟩, Udp.Layer.formed_make h4 1, Ip.Layer.formed_make h4 _ _ _ _, hmac _ _ h4⟩
  have hr : r.Formed :=
    ⟨hmac _ _ h2, Ip.Layer.formed_make h2 _ _ _ _,
      Udp.Layer.formed_openPort (Udp.Layer.formed_make h2 1) 6000 8⟩
  have hready : r.Ready 6000 { port := 6000, stride := ⟨2, 8⟩, user := .make 1 } :=
    ⟨Pipe.idle_make 1, rfl, ⟨.make 1, rfl, Pipe.idle_make 1⟩, rfl, rfl, rfl, rfl⟩
  have hfits : 8 + 3 ≤ Ip.fragmentSize 1500 := by decide
  obtain ⟨image, himage, -, -, -, hreceived⟩ :=
    (datagram_end_to_end hs hr (show s.ip.fragmentSize = Ip.fragmentSize 1500 from rfl) rfl
      (Or.inr rfl) hready ⟨2, 0, 0, 0, 0, 2⟩ 5000
      (show ([1, 2, 3] : Bytes).length ≤ 65507 by decide)).1 hfits
  exact ⟨hfits, image, himage, hreceived⟩

end NetBoard
