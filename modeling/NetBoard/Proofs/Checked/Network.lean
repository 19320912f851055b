/-
  NetBoard.Proofs.Checked.Network
  ───────────────────────────────
  **DATAGRAMS AND ECHOES, CHECKED.**

  A received header is cut out of a frame that is as long as a header, since
  the stage has found one in it; the length that the header states is reduced
  by that of the header only when it is not smaller.  Datagrams are cut into
  pieces that are not empty.  Both layers hold an item only while they hold no
  other.

  Main definitions:

      Layer.Ready               — the stages are formed, and fragments have octets

  Main statements:

      Ip.Station.Ready.step!    — a step of the IP layer
      Icmp.Station.Formed.step! — a step of the echo service
-/
import NetBoard.Proofs.Checked.Link
import NetBoard.Proofs.Datapath.Network

namespace NetBoard

open Checked

/-! ## §1. Headers of datagrams. -/

namespace Ip

/-- No field of the header lies outside of it, or is too wide for the machine. -/
theorem header_proper : header.Proper := by decide

namespace Packet

/-- The checksum is computed over the written header, with zeros in its own place. -/
def fragmentFields! (p : Packet) (sender : Ipv4) (identification : UInt16) (offset length : Nat)
    (more : Bool) : Checked Fields := do
  let values := (((((((((({} : Fields).set "version" 4).set "ihl" 5).set
    "total_length" (length + headerLength)).set "identification" identification.toNat).set
    "flags" (if more then moreFragments else 0)).set "fragment_offset" (offset / 8)).set
    "ttl" 0x80).set "protocol" p.protocol.toNat).set "sender_ip" sender.toNat).set
    "target_ip" p.ip.toNat
  return values.set "checksum" (← checksumSkipping! (← header.encode! values) 10).toNat

/-- Only a datagram with a payload is cut. -/
def headers! (p : Packet) (sender : Ipv4) (identification : UInt16) (size : Nat) :
    Checked (List (Fields × Bytes)) := do
  require .division (p.payload.isEmpty = true ∨ size ≠ 0)
  let cut := chunks size p.payload
  cut.zipIdx.mapM fun (chunk, i) => do
    let values ← p.fragmentFields! sender identification (i * size) chunk.length (i + 1 < cut.length)
    return (values, chunk)

/-- The header is cut out of the frame for its checksum, and its length taken off the stated one. -/
def ofFields! (localIp : Ipv4) (promiscuous : Bool) (bs : Bytes) (values : Fields)
    (payload : Bytes) : Checked (Except Defect Packet) := do
  let totalLength := values.get "total_length"
  if values.get "version" ≠ 4 ∨ values.get "ihl" ≠ 5 then return .error .unsupported
  else
    let sum ← checksum! (← slice bs 0 headerLength)
    if sum ≠ 0 then return .error .badChecksum
    else if !promiscuous && values.ip "target_ip" != localIp then return .error .notForUs
    else if values.get "flags" &&& moreFragments ≠ 0 ∨ values.get "fragment_offset" ≠ 0 then
      return .error .fragment
    else if totalLength < headerLength then return .error .badLength
    else
      let length ← sub totalLength headerLength
      if payload.length < length then return .error .badLength
      else
        let packet : Packet :=
          { ip := values.ip "sender_ip"
            protocol := UInt8.ofNat (values.get "protocol")
            payload := payload.take length }
        return .ok packet

/-- A header that the stage has found, and the checks of it. -/
def read! (d : Depacketizer) (localIp : Ipv4) (promiscuous : Bool) (bs : Bytes) :
    Checked (Depacketizer × Except Defect Packet) := do
  let (d, packet) ← d.depacketize! bs
  match packet with
  | none => return (d, .error .truncated)
  | some (values, payload) => return (d, ← ofFields! localIp promiscuous bs values payload)

/-- Every fragment gets a header, whatever its values are. -/
theorem fragmentFields!_eq (p : Packet) (sender : Ipv4) (identification : UInt16)
    (offset length : Nat) (more : Bool) :
    p.fragmentFields! sender identification offset length more =
      .ok (p.fragmentFields sender identification offset length more) := by
  rw [fragmentFields!, Header.encode!_eq header_proper, ok_bind, checksumSkipping!_eq]
  rfl

/-- With fragments that have octets, any datagram is cut. -/
theorem headers!_eq (p : Packet) (sender : Ipv4) (identification : UInt16) {size : Nat}
    (hsize : 0 < size) :
    p.headers! sender identification size = .ok (p.headers sender identification size) := by
  rw [headers!, require_ok (.inr (Nat.ne_of_gt hsize)), ok_bind]
  refine mapM_ok ?_
  rintro ⟨chunk, i⟩ -
  dsimp only
  rw [fragmentFields!_eq]
  rfl

/-- Only a frame as long as a header has one. -/
theorem ofFields!_eq (localIp : Ipv4) (promiscuous : Bool) {bs : Bytes} (values : Fields)
    (payload : Bytes) (hlen : headerLength ≤ bs.length) :
    ofFields! localIp promiscuous bs values payload =
      .ok (ofFields localIp promiscuous bs values payload) := by
  unfold ofFields! ofFields
  dsimp only
  split
  · rfl
  rw [slice_ok (Nat.zero_le _) hlen, ok_bind, List.drop_zero, checksum!_eq, ok_bind]
  split
  · rfl
  split
  · rfl
  split
  · rfl
  -- one test of the length is two here: the difference is taken between them
  by_cases hshort : values.get "total_length" < headerLength
  · rw [if_pos hshort, if_pos (.inl hshort)]
    rfl
  rw [if_neg hshort, sub_ok (Nat.le_of_not_lt hshort), ok_bind]
  by_cases hcut : payload.length < values.get "total_length" - headerLength
  · rw [if_pos hcut, if_pos (.inr hcut)]
    rfl
  · rw [if_neg hcut, if_neg (not_or.2 ⟨hshort, hcut⟩)]
    rfl

/-- Octets too short for a header have none, so all others can be cut behind one. -/
theorem read!_eq {d : Depacketizer} (hd : d.Reads header) (localIp : Ipv4) (promiscuous : Bool)
    (bs : Bytes) : read! d localIp promiscuous bs = .ok (read d localIp promiscuous bs) := by
  have hpacket := hd.packet (by decide) bs
  unfold read! read
  rw [hd.depacketize!_eq header_proper, ok_bind]
  dsimp only
  rw [hpacket]
  by_cases hshort : bs.length < header.length
  · rw [if_pos hshort]
    rfl
  · rw [if_neg hshort]
    dsimp only
    rw [ofFields!_eq localIp promiscuous _ _ (Nat.le_of_not_lt hshort)]
    rfl

end Packet

/-! ## §2. Fragments. -/

namespace Layer

/-- A header and a frame for each fragment, through one packetizer. -/
def fragment! (l : Layer) (localIp : Ipv4) (packet : Packet) (mac : MacAddress) :
    Checked (Layer × List Log.Line) := do
  let parts ← packet.headers! localIp l.identification l.fragmentSize
  let (packetizer, frames) ← parts.foldlM (fun (p, frames) (values, chunk) => do
    let (p, payload) ← p.packetize! values chunk
    return (p, l.frame mac payload :: frames)) (l.packetizer, [])
  let name := Text.hexTagged 4 l.identification.toNat
  let log :=
    if 1 < parts.length then
      [⟨Log.high, source,
        s!"datagram {name} of {packet.payload.length} bytes split in {parts.length} fragments"⟩]
    else []
  return ({ l with
      packetizer
      sending := .send frames.reverse
      identification := l.identification + 1
      stats := { l.stats with txPackets := l.stats.txPackets + 1 } }, log)

/-- What one frame holds: a datagram, or a defect that is counted. -/
def accept! (l : Layer) (localIp : Ipv4) (bs : Bytes) :
    Checked (Layer × Option Packet × List Log.Line) := do
  match ← Packet.read! l.depacketizer localIp l.promiscuous bs with
  | (depacketizer, .ok packet) => return ({ l with depacketizer }, some packet, [])
  | (depacketizer, .error d) =>
    return ({ l with depacketizer, stats := countDefect d l.stats }, none,
      d.reason?.toList.map fun reason =>
        ⟨Log.medium, source, s!"rx datagram dropped, {reason}"⟩)

/-- The stages of the layer are formed, and a fragment has room for an octet. -/
structure Ready (l : Layer) : Prop extends l.Formed where
  size : 0 < l.fragmentSize

/-- A new layer has room for eight octets in a fragment, however small a frame may be. -/
theorem ready_make {width : Nat} (hw : SupportedWidth width) (mac : MacAddress) (mtu : Nat)
    (promiscuous : Bool) (depth : Nat) : (make mac mtu promiscuous width depth).Ready :=
  ⟨formed_make hw mac mtu promiscuous depth, Nat.lt_of_lt_of_le (by decide) (Nat.le_max_left 8 _)⟩

variable {l : Layer}

/-- Any datagram is cut, to any target. -/
theorem Ready.fragment! (hl : l.Ready) (localIp : Ipv4) (packet : Packet) (mac : MacAddress) :
    l.fragment! localIp packet mac = .ok (l.fragment localIp packet mac) ∧
      (l.fragment localIp packet mac).1.Ready := by
  let parts := packet.headers localIp l.identification l.fragmentSize
  -- each fragment finds the packetizer as the one before it left it, fit for the header
  have hframes : parts.foldlM (fun (p, frames) (values, chunk) => do
      let (p, payload) ← p.packetize! values chunk
      return (p, l.frame mac payload :: frames)) (l.packetizer, []) =
      .ok (parts.foldl (fun (p, frames) (values, chunk) =>
        let (p, payload) := p.packetize values chunk
        (p, l.frame mac payload :: frames)) (l.packetizer, [])) := by
    refine (foldlM_ok (P := fun acc : Packetizer × List Ethernet.Frame => acc.1.Writes header) ?_
      hl.packetizer).1
    rintro ⟨values, chunk⟩ - ⟨p, frames⟩ hp
    refine ⟨?_, Packetizer.Writes.next hp header_sound values chunk⟩
    dsimp only
    rw [Packetizer.Writes.packetize!_eq hp header_proper]
    rfl
  have hnext := l.foldl_packetize_writes hl.packetizer mac parts []
  unfold Layer.fragment!
  rw [Packet.headers!_eq _ _ _ hl.size, ok_bind]
  dsimp only
  rw [hframes]
  exact ⟨rfl, ⟨⟨hnext, hl.depacketizer⟩, hl.size⟩⟩

/-- Any octets are accepted or refused. -/
theorem Ready.accept! (hl : l.Ready) (localIp : Ipv4) (bs : Bytes) :
    l.accept! localIp bs = .ok (l.accept localIp bs) ∧ (l.accept localIp bs).1.Ready := by
  have hnext : (Packet.read l.depacketizer localIp l.promiscuous bs).1.Reads header :=
    hl.depacketizer.next (by decide) bs
  unfold Layer.accept! accept
  rw [Packet.read!_eq hl.depacketizer, ok_bind]
  cases hread : Packet.read l.depacketizer localIp l.promiscuous bs with
  | mk depacketizer result =>
    rw [hread] at hnext
    cases result with
    | ok packet => exact ⟨rfl, ⟨⟨hl.packetizer, hnext⟩, hl.size⟩⟩
    | error d => exact ⟨rfl, ⟨⟨hl.packetizer, hnext⟩, hl.size⟩⟩

/-- A received frame leaves the datagram that is held behind it alone. -/
theorem heldIn_accept (l : Layer) (localIp : Ipv4) (bs : Bytes) :
    (l.accept localIp bs).1.heldIn = l.heldIn := by
  unfold accept
  split <;> rfl

end Layer

/-! ## §3. The sender. -/

namespace Station

/-- The datagram is cut, and its frames wait to be sent. -/
def startSending! (s : Station) (packet : Packet) (mac : MacAddress) :
    Checked (Outcome Station) := do
  let (layer, log) ← s.layer.fragment! s.localIp packet mac
  return .moved { s with layer } log

/-- The next datagram: one that is too long is dropped, groups need no lookup. -/
def begin! (s : Station) : Checked (Outcome Station) :=
  let l := s.layer
  match l.crossbar.outbox.take with
  | none => return .idle s
  | some (packet, outbox) =>
    let l := { l with crossbar := { l.crossbar with outbox } }
    let s := { s with layer := l }
    if maxPayloadLength < packet.payload.length then
      let stats := { l.stats with txOversize := l.stats.txOversize + 1 }
      return .moved { s with layer := { l with stats } }
        [⟨Log.medium, Layer.source,
          s!"datagram of {packet.payload.length} bytes to {packet.ip.text} exceeds the IPv4 maximum, dropped"⟩]
    else if packet.ip.isBroadcast then s.startSending! packet .broadcast
    else if packet.ip.isMulticast then s.startSending! packet packet.ip.multicastMac
    else return .moved { s with layer := { l with sending := .resolve packet } }

/-- The lookup is put into its hold, which must be free. -/
def resolve! (s : Station) (packet : Packet) : Checked (Outcome Station) := do
  if s.layer.heldLookup.isSome then return .idle s
  else
    let (heldLookup, lookups) ← Checked.send s.layer.heldLookup packet.ip s.table.lookups
    return .moved { s with
      layer := { s.layer with heldLookup, sending := .wait packet }
      table := { s.table with lookups } }

/-- The answer to the lookup, if there is one by now. -/
def await! (s : Station) (packet : Packet) : Checked (Outcome Station) :=
  match s.table.answers.take with
  | none => return .idle s
  | some (answer, answers) =>
    let s := { s with table := { s.table with answers } }
    match answer.mac with
    | some mac => s.startSending! packet mac
    | none =>
      let stats := { s.layer.stats with targetUnreachable := s.layer.stats.targetUnreachable + 1 }
      return .moved { s with layer := { s.layer with stats, unreachable := true, sending := .idle } }
        [⟨Log.medium, Layer.source, s!"target {packet.ip.text} unreachable, datagram dropped"⟩]

/-- The next frame is put into the hold, which must be free. -/
def sendFragment! (s : Station) (fragments : List Ethernet.Frame) : Checked (Outcome Station) := do
  match fragments with
  | [] => return .idle { s with layer := { s.layer with sending := .idle } }
  | frame :: rest =>
    let (heldOut, outbound) ← Checked.send s.layer.heldOut frame s.link.outbound
    let stats := { s.layer.stats with txFragments := s.layer.stats.txFragments + 1 }
    let sending := if rest.isEmpty then .idle else .send rest
    return .moved { s with
      layer := { s.layer with heldOut, stats, sending }
      link := { s.link with outbound } }

/-- What is to be done for the datagram on its way. -/
def advance! (s : Station) : Checked (Outcome Station) :=
  match s.layer.sending with
  | .idle => s.begin!
  | .resolve packet => s.resolve! packet
  | .wait packet => s.await! packet
  | .send fragments => s.sendFragment! fragments

/-- The frame that is held goes first, then the lookup that is held. -/
def transmit! (s : Station) : Checked (Outcome Station) :=
  afterHeld s.layer.heldOut s.link.outbound
    (fun heldOut outbound =>
      { s with layer := { s.layer with heldOut }, link := { s.link with outbound } })
    (fun s => andThen (return s.flushLookup) advance!) s

/-- The layer of the station is ready. -/
abbrev Ready (s : Station) : Prop := s.layer.Ready

variable {s : Station}

/-- A ready layer starts to send any datagram. -/
theorem Ready.startSending! (hs : s.Ready) (packet : Packet) (mac : MacAddress) :
    Runs Ready (s.startSending! packet mac) (s.startSending packet mac) := by
  obtain ⟨hok, hnext⟩ := Layer.Ready.fragment! hs s.localIp packet mac
  rw [Station.startSending!, hok]
  exact .pure hnext

/-- It begins whatever datagram is the next one. -/
theorem Ready.begin! (hs : s.Ready) : Runs Ready s.begin! s.begin := by
  unfold Station.begin! Station.begin
  dsimp only
  cases s.layer.crossbar.outbox.take with
  | none => exact .pure hs
  | some taken =>
    obtain ⟨packet, outbox⟩ := taken
    let next : Station :=
      { s with layer := { s.layer with crossbar := { s.layer.crossbar with outbox } } }
    have hnext : next.Ready := ⟨⟨hs.packetizer, hs.depacketizer⟩, hs.size⟩
    dsimp only
    split
    · exact .pure ⟨⟨hs.packetizer, hs.depacketizer⟩, hs.size⟩
    · split
      · exact hnext.startSending! packet .broadcast
      · split
        · exact hnext.startSending! packet packet.ip.multicastMac
        · exact .pure ⟨⟨hs.packetizer, hs.depacketizer⟩, hs.size⟩

/-- A lookup is not put where another one is held: that is tested before. -/
theorem Ready.resolve! (hs : s.Ready) (packet : Packet) :
    Runs Ready (s.resolve! packet) (s.resolve packet) := by
  unfold Station.resolve! resolve
  split
  · exact .pure hs
  · next hheld =>
    rw [send_ok (Option.not_isSome_iff_eq_none.1 hheld)]
    exact .pure ⟨⟨hs.packetizer, hs.depacketizer⟩, hs.size⟩

/-- It sends after an answer, or drops the datagram. -/
theorem Ready.await! (hs : s.Ready) (packet : Packet) :
    Runs Ready (s.await! packet) (s.await packet) := by
  unfold Station.await! await
  cases s.table.answers.take with
  | none => exact .pure hs
  | some taken =>
    obtain ⟨answer, answers⟩ := taken
    let next : Station := { s with table := { s.table with answers } }
    have hnext : next.Ready := hs
    dsimp only
    cases answer.mac with
    | some mac => exact hnext.startSending! packet mac
    | none => exact .pure ⟨⟨hs.packetizer, hs.depacketizer⟩, hs.size⟩

/-- Behind the hold the way is free for one frame. -/
theorem Ready.sendFragment! (hs : s.Ready) (hfree : s.layer.heldOut = none)
    (fragments : List Ethernet.Frame) :
    Runs Ready (s.sendFragment! fragments) (s.sendFragment fragments) := by
  cases fragments with
  | nil => exact .pure ⟨⟨hs.packetizer, hs.depacketizer⟩, hs.size⟩
  | cons frame rest =>
    unfold Station.sendFragment! sendFragment
    dsimp only
    rw [send_ok hfree]
    exact .pure ⟨⟨hs.packetizer, hs.depacketizer⟩, hs.size⟩

/-- In each of its states it goes on. -/
theorem Ready.advance! (hs : s.Ready) (hfree : s.layer.heldOut = none) :
    Runs Ready s.advance! s.advance := by
  unfold Station.advance! advance
  cases s.layer.sending with
  | idle => exact hs.begin!
  | resolve packet => exact hs.resolve! packet
  | wait packet => exact hs.await! packet
  | send fragments => exact hs.sendFragment! hfree fragments

/-- The hold is free where a frame is put into it. -/
theorem Ready.transmit! (hs : s.Ready) : Runs Ready s.transmit! s.transmit := by
  rw [Station.transmit!, s.transmit_eq]
  refine Runs.afterHeld (·.layer.heldOut) hs (fun _ => ?_) fun t ht hfree => ?_
  · exact ⟨⟨⟨hs.packetizer, hs.depacketizer⟩, hs.size⟩, rfl⟩
  · have hflushed : Runs (fun t => t.Ready ∧ t.layer.heldOut = none) (.ok t.flushLookup)
        t.flushLookup := .pure ⟨⟨⟨ht.packetizer, ht.depacketizer⟩, ht.size⟩, hfree⟩
    exact hflushed.andThen fun _ ht => ht.1.advance! ht.2

/-! ## §4. The receiver, and a step. -/

/-- One frame from below; its datagram is put into the hold of the crossbar. -/
def receiveNext! (s : Station) : Checked (Outcome Station) := do
  match s.link.inbound.take with
  | none => return .idle s
  | some (frame, inbound) =>
    let s := { s with link := { s.link with inbound } }
    match ← s.layer.accept! s.localIp frame.payload with
    | (layer, none, log) => return .moved { s with layer } log
    | (layer, some packet, log) =>
      let (heldIn, inbox) ← Checked.send layer.heldIn packet layer.crossbar.inbox
      let stats := { layer.stats with rxPackets := layer.stats.rxPackets + 1 }
      return .moved { s with
        layer := { layer with heldIn, stats, crossbar := { layer.crossbar with inbox } } } log

/-- The datagram that is held goes first. -/
def receive! (s : Station) : Checked (Outcome Station) :=
  afterHeld s.layer.heldIn s.layer.crossbar.inbox
    (fun heldIn inbox =>
      { s with layer := { s.layer with heldIn, crossbar := { s.layer.crossbar with inbox } } })
    receiveNext! s

/-- The crossbar, the sender and the receiver, in this order. -/
def step! (s : Station) : Checked (Outcome Station) :=
  let l := { s.layer with unreachable := false }
  andThen (andThen
    (map (fun crossbar => { s with layer := { l with crossbar } }) l.crossbar.step!) transmit!)
    receive!

/-- Any frame is taken, whatever is in it. -/
theorem Ready.receiveNext! (hs : s.Ready) (hfree : s.layer.heldIn = none) :
    Runs Ready s.receiveNext! s.receiveNext := by
  unfold Station.receiveNext! receiveNext
  cases s.link.inbound.take with
  | none => exact .pure hs
  | some taken =>
    obtain ⟨frame, inbound⟩ := taken
    obtain ⟨hok, haccepted⟩ := Layer.Ready.accept! hs s.localIp frame.payload
    have hheld : (s.layer.accept s.localIp frame.payload).1.heldIn = none :=
      (s.layer.heldIn_accept s.localIp frame.payload).trans hfree
    dsimp only
    rw [hok, ok_bind]
    cases hread : s.layer.accept s.localIp frame.payload with
    | mk layer rest =>
      obtain ⟨packet, log⟩ := rest
      rw [hread] at haccepted hheld
      cases packet with
      | none => exact .pure haccepted
      | some packet =>
        dsimp only at hheld ⊢
        rw [send_ok hheld]
        exact .pure ⟨⟨haccepted.packetizer, haccepted.depacketizer⟩, haccepted.size⟩

/-- The hold is free where a datagram is put into it. -/
theorem Ready.receive! (hs : s.Ready) : Runs Ready s.receive! s.receive := by
  rw [Station.receive!, s.receive_eq]
  refine Runs.afterHeld (·.layer.heldIn) hs (fun _ => ?_) fun _ hs hfree => hs.receiveNext! hfree
  exact ⟨⟨⟨hs.packetizer, hs.depacketizer⟩, hs.size⟩, rfl⟩

/-- No frame, no datagram and no answer of the resolver stops the IP layer. -/
theorem Ready.step! (hs : s.Ready) : Runs Ready s.step! s.step := by
  have hexchange : Runs Ready
      (Checked.map
        (fun crossbar => { s with layer := { s.layer with unreachable := false, crossbar } })
        s.layer.crossbar.step!)
      (s.layer.crossbar.step.map fun crossbar =>
        { s with layer := { s.layer with unreachable := false, crossbar } }) := by
    rw [Crossbar.step!_eq]
    exact .pure ⟨⟨hs.packetizer, hs.depacketizer⟩, hs.size⟩
  exact (hexchange.andThen fun _ hs => hs.transmit!).andThen fun _ hs => hs.receive!

end Station
end Ip

/-! ## §5. The echo service. -/

namespace Icmp

/-- No field of the header lies outside of it, or is too wide for the machine. -/
theorem header_proper : header.Proper := by decide

/-- The checksum of the reply is derived from that of the request. -/
def Request.replyFields! (r : Request) : Checked Fields := do
  let checksum ← echoReplyChecksum! (UInt16.ofNat (r.fields.get "checksum"))
  return (r.fields.set "msgtype" echoReply).set "checksum" checksum.toNat

/-- It can be derived from any checksum. -/
theorem Request.replyFields!_eq (r : Request) : r.replyFields! = .ok r.replyFields := by
  rw [replyFields!, echoReplyChecksum!_eq]
  rfl

namespace Station

/-- The reply to the oldest request is put into the hold, which must be free. -/
def replyNext! (s : Station) : Checked (Outcome Station) := do
  match s.echo.buffer with
  | [] => return .idle s
  | request :: buffer =>
    let (packetizer, payload) ←
      s.echo.packetizer.packetize! (← request.replyFields!) request.payload
    let (heldOut, outbound) ←
      Checked.send s.echo.heldOut ⟨request.ip, protocol, payload⟩ s.link.outbound
    let stats := { s.echo.stats with echoReplies := s.echo.stats.echoReplies + 1 }
    return .moved { echo := { s.echo with packetizer, buffer, heldOut, stats }
                    link := { s.link with outbound } }

/-- The reply that is held goes first. -/
def reply! (s : Station) : Checked (Outcome Station) :=
  afterHeld s.echo.heldOut s.link.outbound
    (fun heldOut outbound =>
      { echo := { s.echo with heldOut }, link := { s.link with outbound } })
    replyNext! s

/-- Echo requests wait for their replies, other messages are counted. -/
def accept! (s : Station) (packet : Ip.Packet) : Checked (Outcome Station) := do
  let (depacketizer, message) ← s.echo.depacketizer.depacketize! packet.payload
  let echo := { s.echo with depacketizer }
  match message.filter fun (fields, _) => fields.get "msgtype" == echoRequest with
  | some (fields, payload) =>
    let request : Request := ⟨packet.ip, fields, payload⟩
    let stats := { echo.stats with echoRequests := echo.stats.echoRequests + 1 }
    return .moved { s with echo := { echo with buffer := echo.buffer ++ [request], stats } }
      [⟨Log.high, source, s!"echo request from {packet.ip.text}"⟩]
  | none =>
    let stats := { echo.stats with ignored := echo.stats.ignored + 1 }
    return .moved { s with echo := { echo with stats } }
      [⟨Log.medium, source, s!"non echo request message from {packet.ip.text} ignored"⟩]

/-- A message is taken while there is room for a request. -/
def receive! (s : Station) : Checked (Outcome Station) :=
  if s.echo.depth ≤ s.echo.buffer.length then return .idle s
  else
    match s.link.inbound.take with
    | none => return .idle s
    | some (packet, inbound) => { s with link := { s.link with inbound } }.accept! packet

/-- Replies are sent before requests are taken. -/
def step! (s : Station) : Checked (Outcome Station) := andThen s.reply! receive!

/-- The service of the station is formed. -/
abbrev Formed (s : Station) : Prop := s.echo.Formed

variable {s : Station}

/-- Any request is replied to. -/
theorem Formed.replyNext! (hs : s.Formed) (hfree : s.echo.heldOut = none) :
    Runs Formed s.replyNext! s.replyNext := by
  unfold Station.replyNext! replyNext
  cases hbuffer : s.echo.buffer with
  | nil => exact .pure hs
  | cons request buffer =>
    have hwrites : s.echo.packetizer.Writes header := ⟨hs.packetizer_header, hs.packetizer_width⟩
    have hnext := hwrites.next header_sound request.replyFields request.payload
    dsimp only
    rw [Request.replyFields!_eq, ok_bind, hwrites.packetize!_eq header_proper, ok_bind,
      send_ok hfree]
    exact .pure ⟨hnext.header, hnext.width, hs.depacketizer_format, hs.depacketizer_width⟩

/-- The hold is free where a reply is put into it. -/
theorem Formed.reply! (hs : s.Formed) : Runs Formed s.reply! s.reply := by
  rw [Station.reply!, s.reply_eq]
  refine Runs.afterHeld (·.echo.heldOut) hs (fun _ => ?_) fun _ hs hfree => hs.replyNext! hfree
  exact ⟨⟨hs.packetizer_header, hs.packetizer_width, hs.depacketizer_format,
    hs.depacketizer_width⟩, rfl⟩

/-- Any octets are accepted or counted. -/
theorem Formed.accept! (hs : s.Formed) (packet : Ip.Packet) :
    Runs Formed (s.accept! packet) (s.accept packet) := by
  have hreads : s.echo.depacketizer.Reads header := ⟨hs.depacketizer_format, hs.depacketizer_width⟩
  have hnext := hreads.next (by decide) packet.payload
  unfold Station.accept! accept
  rw [hreads.depacketize!_eq header_proper, ok_bind]
  dsimp only
  cases (s.echo.depacketizer.depacketize packet.payload).2.filter
      (·.1.get "msgtype" == echoRequest) with
  | some request => exact .pure ⟨hs.packetizer_header, hs.packetizer_width, hnext.format, hnext.width⟩
  | none => exact .pure ⟨hs.packetizer_header, hs.packetizer_width, hnext.format, hnext.width⟩

/-- Any message is taken. -/
theorem Formed.receive! (hs : s.Formed) : Runs Formed s.receive! s.receive := by
  unfold Station.receive! receive
  split
  · exact .pure hs
  · cases s.link.inbound.take with
    | none => exact .pure hs
    | some taken =>
      obtain ⟨packet, inbound⟩ := taken
      have hnext : Formed { s with link := { s.link with inbound } } := hs
      exact hnext.accept! packet

/-- No message stops the echo service. -/
theorem Formed.step! (hs : s.Formed) : Runs Formed s.step! s.step :=
  hs.reply!.andThen fun _ hs => hs.receive!

end Station
end Icmp
end NetBoard
