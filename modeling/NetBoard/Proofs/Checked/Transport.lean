/-
  NetBoard.Proofs.Checked.Transport
  ─────────────────────────────────
  **USERS' PORTS AND THE UDP LAYER, CHECKED.**

  A bridge changes the width of what it passes on, and both of its widths are
  supported, whatever beats a user sends.  The length that a datagram states is
  reduced by that of the header only when it is not smaller.

  Main statements:

      UserPacket.bytes!_eq         — the octets in a user's beats, whatever they are
      Bridge.Station.Formed.step!  — a step of a bridge
      Station.Formed.step!         — a step of the UDP layer
-/
import NetBoard.Proofs.Checked.Link
import NetBoard.Proofs.Datapath.Transport
import NetBoard.Proofs.Udp.Datagram

namespace NetBoard.Udp

open Checked

/-! ## §1. Datagrams of users. -/

namespace UserPacket

/-- The octets of a datagram, on the bus of its user. -/
def ofBytes! (ip : Ipv4) (srcPort dstPort : UInt16) (payload : Bytes) (width : Nat) :
    Checked UserPacket := do
  let data ← Beat.ofBytes! width payload
  return { ip, srcPort, dstPort, length := payload.length, data }

/-- The octets on the bus of a user, as many as it says. -/
def bytes! (p : UserPacket) (width : Nat) : Checked Bytes := do
  let bytes ← Beat.toBytes! width p.data
  return bytes.take p.length

/-- On a supported width a user is given any octets. -/
theorem ofBytes!_eq {width : Nat} (hw : SupportedWidth width) (ip : Ipv4)
    (srcPort dstPort : UInt16) (payload : Bytes) :
    ofBytes! ip srcPort dstPort payload width = .ok (ofBytes ip srcPort dstPort payload width) := by
  rw [ofBytes!, Beat.ofBytes!_eq hw]
  rfl

/-- A user may say more octets than there are, or fewer, and set any flags. -/
theorem bytes!_eq {width : Nat} (hw : SupportedWidth width) (p : UserPacket) :
    p.bytes! width = .ok (p.bytes width) := by
  rw [bytes!, Beat.toBytes!_eq hw.le_eight]
  rfl

end UserPacket

/-! ## §2. Bridges. -/

namespace Bridge

/-- From the layer's width to the user's. -/
def toUser! (b : Bridge) (p : Packet) : Checked UserPacket := do
  let data ← b.stride.convert! (← Beat.ofBytes! b.stride.source p.payload)
  return { ip := p.ip, srcPort := p.srcPort, dstPort := p.dstPort, length := p.payload.length, data }

/-- From the user's width to the layer's. -/
def ofUser! (b : Bridge) (p : UserPacket) : Checked Packet := do
  let bytes ← Beat.toBytes! b.stride.source (← b.stride.reverse.convert! p.data)
  return { ip := p.ip, srcPort := p.srcPort, dstPort := p.dstPort, payload := bytes.take p.length }

variable {b : Bridge}

/-- Any datagram is converted for its user. -/
theorem Formed.toUser! (hb : b.Formed) (p : Packet) : b.toUser! p = .ok (b.toUser p) := by
  obtain ⟨hsource, htarget⟩ := hb
  rw [Bridge.toUser!, Beat.ofBytes!_eq hsource, ok_bind, Stride.convert!_eq hsource htarget]
  rfl

/-- Any packet of a user is converted, whatever its beats are. -/
theorem Formed.ofUser! (hb : b.Formed) (p : UserPacket) : b.ofUser! p = .ok (b.ofUser p) := by
  obtain ⟨hsource, htarget⟩ := hb
  have hconvert : b.stride.reverse.convert! p.data = .ok (b.stride.reverse.convert p.data) :=
    Stride.convert!_eq htarget hsource p.data
  rw [Bridge.ofUser!, hconvert, ok_bind, Beat.toBytes!_eq hsource.le_eight]
  rfl

namespace Station

/-- The next datagram is put into the user's hold, which must be free. -/
def deliverNext! (s : Station) : Checked (Outcome Station) := do
  match s.link.inbound.take with
  | none => return .idle s
  | some (packet, inbound) =>
    let (heldIn, toUser) ← send s.bridge.heldIn (← s.bridge.toUser! packet) s.bridge.user.inbound
    return .moved
      { bridge := { s.bridge with heldIn, user := { s.bridge.user with inbound := toUser } }
        link := { s.link with inbound } }

/-- The datagram that is held goes first. -/
def deliver! (s : Station) : Checked (Outcome Station) :=
  afterHeld s.bridge.heldIn s.bridge.user.inbound
    (fun heldIn inbound =>
      { s with bridge := { s.bridge with heldIn, user := { s.bridge.user with inbound } } })
    deliverNext! s

/-- The user's next packet is put into the layer's hold, which must be free. -/
def collectNext! (s : Station) : Checked (Outcome Station) := do
  match s.bridge.user.outbound.take with
  | none => return .idle s
  | some (packet, fromUser) =>
    let (heldOut, outbound) ← send s.bridge.heldOut (← s.bridge.ofUser! packet) s.link.outbound
    return .moved
      { bridge := { s.bridge with heldOut, user := { s.bridge.user with outbound := fromUser } }
        link := { s.link with outbound } }

/-- The packet that is held goes first. -/
def collect! (s : Station) : Checked (Outcome Station) :=
  afterHeld s.bridge.heldOut s.link.outbound
    (fun heldOut outbound =>
      { bridge := { s.bridge with heldOut }, link := { s.link with outbound } })
    collectNext! s

/-- Datagrams go to the user, then from it. -/
def step! (s : Station) : Checked (Outcome Station) := andThen s.deliver! collect!

/-- The bridge of the station is formed. -/
abbrev Formed (s : Station) : Prop := s.bridge.Formed

variable {s : Station}

/-- Any datagram is delivered. -/
theorem Formed.deliverNext! (hs : s.Formed) (hfree : s.bridge.heldIn = none) :
    Runs Formed s.deliverNext! s.deliverNext := by
  unfold Station.deliverNext! deliverNext
  cases s.link.inbound.take with
  | none => exact .pure hs
  | some taken =>
    obtain ⟨packet, inbound⟩ := taken
    dsimp only
    rw [Bridge.Formed.toUser! hs, ok_bind, send_ok hfree]
    exact .pure hs

/-- The hold is free where a datagram is put into it. -/
theorem Formed.deliver! (hs : s.Formed) : Runs Formed s.deliver! s.deliver := by
  rw [Station.deliver!, s.deliver_eq]
  refine Runs.afterHeld (·.bridge.heldIn) hs (fun _ => ?_) fun _ hs hfree => hs.deliverNext! hfree
  exact ⟨hs, rfl⟩

/-- Any packet of the user is collected. -/
theorem Formed.collectNext! (hs : s.Formed) (hfree : s.bridge.heldOut = none) :
    Runs Formed s.collectNext! s.collectNext := by
  unfold Station.collectNext! collectNext
  cases s.bridge.user.outbound.take with
  | none => exact .pure hs
  | some taken =>
    obtain ⟨packet, fromUser⟩ := taken
    dsimp only
    rw [Bridge.Formed.ofUser! hs, ok_bind, send_ok hfree]
    exact .pure hs

/-- The hold is free where a packet is put into it. -/
theorem Formed.collect! (hs : s.Formed) : Runs Formed s.collect! s.collect := by
  rw [Station.collect!, s.collect_eq]
  refine Runs.afterHeld (·.bridge.heldOut) hs (fun _ => ?_) fun _ hs hfree => hs.collectNext! hfree
  exact ⟨hs, rfl⟩

/-- Nothing that a user sends, and nothing that is sent to one, stops a bridge. -/
theorem Formed.step! (hs : s.Formed) : Runs Formed s.step! s.step :=
  hs.deliver!.andThen fun _ hs => hs.collect!

end Station
end Bridge

/-! ## §3. The layer. -/

/-- No field of the header lies outside of it, or is too wide for the machine. -/
theorem header_proper : header.Proper := by decide

/-- The length of the header is taken off the stated one. -/
def Packet.ofFields! (ip : Ipv4) (values : Fields) (payload : Bytes) :
    Checked (Except Nat Packet) := do
  let length := values.get "length"
  if length < headerLength then return .error length
  else
    let size ← sub length headerLength
    if payload.length < size then return .error length
    else
      let packet : Packet :=
        { ip
          srcPort := UInt16.ofNat (values.get "src_port")
          dstPort := UInt16.ofNat (values.get "dst_port")
          payload := payload.take size }
      return .ok packet

/-- A stated length that is shorter than the header is refused first. -/
theorem Packet.ofFields!_eq (ip : Ipv4) (values : Fields) (payload : Bytes) :
    ofFields! ip values payload = .ok (ofFields ip values payload) := by
  unfold ofFields! ofFields
  dsimp only
  by_cases hshort : values.get "length" < headerLength
  · rw [if_pos hshort, if_pos (.inl hshort)]
    rfl
  rw [if_neg hshort, sub_ok (Nat.le_of_not_lt hshort), ok_bind]
  by_cases hcut : payload.length < values.get "length" - headerLength
  · rw [if_pos hcut, if_pos (.inr hcut)]
    rfl
  · rw [if_neg hcut, if_neg (not_or.2 ⟨hshort, hcut⟩)]
    rfl

namespace Layer

/-- Each bridge with the pipes of its port, as the bridges before it left them. -/
def stepBridges! : List Bridge → Crossbar Packet → Checked (Outcome (List Bridge × Crossbar Packet))
  | [], xb => return .idle ([], xb)
  | b :: rest, xb =>
    match xb.link? b.port with
    | none => map (fun (bs, xb) => (b :: bs, xb)) (stepBridges! rest xb)
    | some link => do
      let o ← Bridge.Station.step! ⟨b, link⟩
      let next ← stepBridges! rest (xb.setLink b.port o.state.link)
      return {
        state := (o.state.bridge :: next.state.1, next.state.2)
        progress := o.progress || next.progress
        log := o.log ++ next.log }

/-- One bridge after the other. -/
theorem stepBridges!_runs {bridges : List Bridge} (hb : ∀ b ∈ bridges, b.Formed)
    (xb : Crossbar Packet) :
    Runs (fun next => ∀ b ∈ next.1, b.Formed) (stepBridges! bridges xb) (stepBridges bridges xb) := by
  induction bridges generalizing xb with
  | nil => exact .pure hb
  | cons b rest ih =>
    obtain ⟨hfirst, hrest⟩ := List.forall_mem_cons.1 hb
    unfold stepBridges! stepBridges
    cases xb.link? b.port with
    | none => exact (ih hrest xb).map fun _ hnext => List.forall_mem_cons.2 ⟨hfirst, hnext⟩
    | some link =>
      have hformed : (⟨b, link⟩ : Bridge.Station).Formed := hfirst
      obtain ⟨hok, hkept⟩ := hformed.step!
      obtain ⟨hnext, hall⟩ :=
        ih hrest (xb.setLink b.port (Bridge.Station.step ⟨b, link⟩).state.link)
      dsimp only
      rw [hok, ok_bind, hnext]
      exact .pure (List.forall_mem_cons.2 ⟨hkept, hall⟩)

end Layer

namespace Station

/-- The next datagram is put into the hold, which must be free. -/
def transmitNext! (s : Station) : Checked (Outcome Station) := do
  let l := s.layer
  match l.crossbar.outbox.take with
  | none => return .idle s
  | some (packet, outbox) =>
    let l := { l with crossbar := { l.crossbar with outbox } }
    let size := packet.payload.length
    if maxPayloadLength < size then
      let stats := { l.stats with txOversize := l.stats.txOversize + 1 }
      return .moved { s with layer := { l with stats } }
        [⟨Log.medium, Layer.source,
          s!"datagram of {size} bytes from port {packet.srcPort} is too large, dropped"⟩]
    else
      let (packetizer, payload) ← l.packetizer.packetize! packet.fields packet.payload
      let (heldOut, outbound) ← send l.heldOut ⟨packet.ip, protocol, payload⟩ s.link.outbound
      let stats := { l.stats with txDatagrams := l.stats.txDatagrams + 1 }
      return .moved
        { layer := { l with packetizer, heldOut, stats }, link := { s.link with outbound } }

/-- The datagram that is held goes first. -/
def transmit! (s : Station) : Checked (Outcome Station) :=
  afterHeld s.layer.heldOut s.link.outbound
    (fun heldOut outbound =>
      { layer := { s.layer with heldOut }, link := { s.link with outbound } })
    transmitNext! s

/-- A header is taken off; a datagram without one, or with a bad length, is counted. -/
def accept! (s : Station) (packet : Ip.Packet) : Checked (Outcome Station) := do
  let (depacketizer, datagram) ← s.layer.depacketizer.depacketize! packet.payload
  let l := { s.layer with depacketizer }
  let invalid := { l with stats := { l.stats with invalid := l.stats.invalid + 1 } }
  match datagram with
  | none => return .moved { s with layer := invalid }
  | some (values, payload) =>
    match ← Packet.ofFields! packet.ip values payload with
    | .error length =>
      return .moved { s with layer := invalid }
        [⟨Log.medium, Layer.source, s!"rx datagram dropped, bad length {length}"⟩]
    | .ok datagram =>
      let (heldIn, inbox) ← send l.heldIn datagram l.crossbar.inbox
      let stats := { l.stats with rxDatagrams := l.stats.rxDatagrams + 1 }
      return .moved
        { s with layer := { l with heldIn, stats, crossbar := { l.crossbar with inbox } } }

/-- The next datagram from below. -/
def receiveNext! (s : Station) : Checked (Outcome Station) :=
  match s.link.inbound.take with
  | none => return .idle s
  | some (packet, inbound) => { s with link := { s.link with inbound } }.accept! packet

/-- The datagram that is held goes first. -/
def receive! (s : Station) : Checked (Outcome Station) :=
  afterHeld s.layer.heldIn s.layer.crossbar.inbox
    (fun heldIn inbox =>
      { s with layer := { s.layer with heldIn, crossbar := { s.layer.crossbar with inbox } } })
    receiveNext! s

/-- All bridges of the layer. -/
def bridge! (s : Station) : Checked (Outcome Station) :=
  map (fun (bridges, crossbar) => { s with layer := { s.layer with bridges, crossbar } })
    (Layer.stepBridges! s.layer.bridges s.layer.crossbar)

/-- The crossbar between the bridges and the layer. -/
def exchange! (s : Station) : Checked (Outcome Station) :=
  map (fun crossbar => { s with layer := { s.layer with crossbar } }) s.layer.crossbar.step!

/-- The bridges, the crossbar, the sender and the receiver, in this order. -/
def step! (s : Station) : Checked (Outcome Station) :=
  andThen (andThen (andThen s.bridge! exchange!) transmit!) receive!

/-- The layer of the station is formed. -/
abbrev Formed (s : Station) : Prop := s.layer.Formed

variable {s : Station}

/-- Any datagram of a user is sent, or dropped for its length. -/
theorem Formed.transmitNext! (hs : s.Formed) (hfree : s.layer.heldOut = none) :
    Runs Formed s.transmitNext! s.transmitNext := by
  unfold Station.transmitNext! transmitNext
  dsimp only
  cases s.layer.crossbar.outbox.take with
  | none => exact .pure hs
  | some taken =>
    obtain ⟨packet, outbox⟩ := taken
    have hnext := hs.packetizer.next header_sound packet.fields packet.payload
    dsimp only
    split
    · exact .pure ⟨hs.packetizer, hs.depacketizer, hs.bridges⟩
    · rw [hs.packetizer.packetize!_eq header_proper, ok_bind, send_ok hfree]
      exact .pure ⟨hnext, hs.depacketizer, hs.bridges⟩

/-- The hold is free where a datagram is put into it. -/
theorem Formed.transmit! (hs : s.Formed) : Runs Formed s.transmit! s.transmit := by
  rw [Station.transmit!, s.transmit_eq]
  refine Runs.afterHeld (·.layer.heldOut) hs (fun _ => ?_) fun _ hs hfree => hs.transmitNext! hfree
  exact ⟨⟨hs.packetizer, hs.depacketizer, hs.bridges⟩, rfl⟩

/-- With a free hold any octets are accepted or refused. -/
theorem Formed.accept! (hs : s.Formed) (hfree : s.layer.heldIn = none) (packet : Ip.Packet) :
    Runs Formed (s.accept! packet) (s.accept packet) := by
  have hnext := hs.depacketizer.next (by decide) packet.payload
  unfold Station.accept! accept
  rw [hs.depacketizer.depacketize!_eq header_proper, ok_bind]
  dsimp only
  cases (s.layer.depacketizer.depacketize packet.payload).2 with
  | none => exact .pure ⟨hs.packetizer, hnext, hs.bridges⟩
  | some datagram =>
    obtain ⟨values, payload⟩ := datagram
    dsimp only
    rw [Packet.ofFields!_eq, ok_bind]
    cases Packet.ofFields packet.ip values payload with
    | error length => exact .pure ⟨hs.packetizer, hnext, hs.bridges⟩
    | ok datagram =>
      dsimp only
      rw [send_ok hfree]
      exact .pure ⟨hs.packetizer, hnext, hs.bridges⟩

/-- Any datagram from below is taken. -/
theorem Formed.receiveNext! (hs : s.Formed) (hfree : s.layer.heldIn = none) :
    Runs Formed s.receiveNext! s.receiveNext := by
  unfold Station.receiveNext! receiveNext
  cases s.link.inbound.take with
  | none => exact .pure hs
  | some taken =>
    obtain ⟨packet, inbound⟩ := taken
    have hnext : Formed { s with link := { s.link with inbound } } := hs
    exact hnext.accept! hfree packet

/-- The hold is free where a datagram is put into it. -/
theorem Formed.receive! (hs : s.Formed) : Runs Formed s.receive! s.receive := by
  rw [Station.receive!, s.receive_eq]
  refine Runs.afterHeld (·.layer.heldIn) hs (fun _ => ?_) fun _ hs hfree => hs.receiveNext! hfree
  exact ⟨⟨hs.packetizer, hs.depacketizer, hs.bridges⟩, rfl⟩

/-- No bridge stops the others. -/
theorem Formed.bridge! (hs : s.Formed) : Runs Formed s.bridge! s.bridge :=
  (Layer.stepBridges!_runs hs.bridges s.layer.crossbar).map fun _ hb =>
    ⟨hs.packetizer, hs.depacketizer, hb⟩

/-- No record stops the crossbar of the layer. -/
theorem Formed.exchange! (hs : s.Formed) : Runs Formed s.exchange! s.exchange := by
  unfold Station.exchange! exchange
  rw [Crossbar.step!_eq]
  exact .pure ⟨hs.packetizer, hs.depacketizer, hs.bridges⟩

/-- No datagram stops the UDP layer, from the IP layer or from its users. -/
theorem Formed.step! (hs : s.Formed) : Runs Formed s.step! s.step :=
  ((hs.bridge!.andThen fun _ hs => hs.exchange!).andThen fun _ hs => hs.transmit!).andThen
    fun _ hs => hs.receive!

end Station
end NetBoard.Udp
