/-
  NetBoard.Proofs.Datapath.Network
  ────────────────────────────────
  **DATAGRAMS AND ECHOES ON ANY DATAPATH.**

  The IP layer frames the fragments of a datagram one after the other, and the
  echo service its replies; what the one leaves in its stage does not show in
  the next.  Both are oblivious of the datapath.

  Main definitions:

      Layer.on, Echo.on            — the layer with the stages of a datapath

  Main statements:

      Layer.fragment_on            — the fragments of a datagram
      Layer.accept_on              — the datagram in a frame
      Ip.Station.step_oblivious    — one step of the IP layer
      Icmp.Station.step_oblivious  — one step of the echo service
-/
import NetBoard.Proofs.Datapath.Oblivious
import NetBoard.Proofs.Icmp.EchoReply
import NetBoard.Proofs.Ip.Datagram

namespace NetBoard

open Outcome (Alike Oblivious)

/-! ## §1. The IP layer. -/

namespace Ip

namespace Layer

/-- The layer with the stages of a datapath. -/
def on (l : Layer) (d : Stages header) : Layer :=
  { l with packetizer := d.packetizer, depacketizer := d.depacketizer }

variable (l : Layer)

/-- The stage after it has framed parts one after the other still writes the header. -/
theorem foldl_packetize_writes {p : Packetizer} (hp : p.Writes header) (mac : MacAddress)
    (parts : List (Fields × Bytes)) (done : List Ethernet.Frame) :
    (parts.foldl (fun (p, done) (values, chunk) =>
      let (p, payload) := p.packetize values chunk
      (p, l.frame mac payload :: done)) (p, done)).1.Writes header := by
  induction parts generalizing p done with
  | nil => exact hp
  | cons part parts ih =>
    obtain ⟨values, chunk⟩ := part
    exact ih (hp.next header_sound values chunk) _

/-- The fragments of a datagram do not depend on the datapath. -/
theorem fragment_on (localIp : Ipv4) (packet : Packet) (mac : MacAddress) :
    ∃ (next : Layer) (log : List Log.Line), ∀ d, ∃ d',
      (l.on d).fragment localIp packet mac = (next.on d', log) := by
  let parts := packet.headers localIp l.identification l.fragmentSize
  let frames := parts.map fun (values, chunk) => l.frame mac (header.encode values ++ chunk)
  let name := Text.hexTagged 4 l.identification.toNat
  let log : List Log.Line :=
    if 1 < parts.length then
      [⟨Log.high, source,
        s!"datagram {name} of {packet.payload.length} bytes split in {parts.length} fragments"⟩]
    else []
  let cut (frames : List Ethernet.Frame) : Layer := { l with
    sending := .send frames
    identification := l.identification + 1
    stats := { l.stats with txPackets := l.stats.txPackets + 1 } }
  refine ⟨cut frames, log, fun d => ?_⟩
  let framed := parts.foldl (fun (p, done) (values, chunk) =>
    let (p, payload) := p.packetize values chunk
    (p, l.frame mac payload :: done)) (d.packetizer, [])
  have hframes : framed.2.reverse = frames := by
    rw [foldl_packetize d.writes l mac parts [], List.append_nil, List.reverse_reverse]
  let d' : Stages header :=
    ⟨framed.1, d.depacketizer, l.foldl_packetize_writes d.writes mac parts [], d.reads⟩
  refine ⟨d', ?_⟩
  show ((cut framed.2.reverse).on d', log) = _
  rw [hframes]

/-- What the layer reads in received octets. -/
def reading (localIp : Ipv4) (bs : Bytes) : Except Packet.Defect Packet :=
  match header.split bs with
  | none => .error .truncated
  | some (values, payload) => Packet.ofFields localIp l.promiscuous bs values payload

/-- A header is read from any width. -/
theorem read_on (localIp : Ipv4) (bs : Bytes) (d : Stages header) :
    Packet.read (l.on d).depacketizer localIp (l.on d).promiscuous bs =
      ((d.received (by decide) bs).depacketizer, l.reading localIp bs) := by
  unfold Packet.read
  rw [show (l.on d).depacketizer = d.depacketizer from rfl, d.depacketize (by decide)]
  rfl

/-- Neither does the datagram in a received frame. -/
theorem accept_on (localIp : Ipv4) (bs : Bytes) :
    ∃ (next : Layer) (packet : Option Packet) (log : List Log.Line), ∀ d, ∃ d',
      (l.on d).accept localIp bs = (next.on d', packet, log) := by
  cases hreading : l.reading localIp bs with
  | ok packet =>
    refine ⟨l, some packet, [], fun d => ⟨d.received (by decide) bs, ?_⟩⟩
    unfold accept
    rw [read_on, hreading]
    rfl
  | error defect =>
    refine ⟨{ l with stats := countDefect defect l.stats }, none,
      defect.reason?.toList.map fun reason =>
        ⟨Log.medium, source, s!"rx datagram dropped, {reason}"⟩,
      fun d => ⟨d.received (by decide) bs, ?_⟩⟩
    unfold accept
    rw [read_on, hreading]
    rfl

end Layer

namespace Station

/-- The station with the stages of a datapath. -/
def on (s : Station) (d : Stages header) : Station := { s with layer := s.layer.on d }

/-- The frames of a datagram are the same on all widths. -/
theorem startSending_oblivious (packet : Packet) (mac : MacAddress) :
    Oblivious on (startSending · packet mac) := by
  intro s
  obtain ⟨next, log, hfragment⟩ := s.layer.fragment_on s.localIp packet mac
  refine (Alike.moved { s with layer := next } log id).reached fun d => ?_
  obtain ⟨d', hd⟩ := hfragment d
  refine ⟨d', ?_⟩
  show (s.on d).startSending packet mac = _
  unfold startSending
  rw [show (s.on d).layer.fragment (s.on d).localIp packet mac = _ from hd]
  rfl

/-- The next datagram is taken on all widths alike. -/
theorem begin_oblivious : Oblivious on Station.begin := by
  intro s
  have hcrossbar : ∀ d, (s.on d).layer.crossbar = s.layer.crossbar := fun d => rfl
  unfold Station.begin
  simp only [hcrossbar]
  cases s.layer.crossbar.outbox.take with
  | none => exact .idle s
  | some taken =>
    obtain ⟨packet, outbox⟩ := taken
    let l := { s.layer with crossbar := { s.layer.crossbar with outbox } }
    let t := { s with layer := l }
    show Alike on fun d =>
      if maxPayloadLength < packet.payload.length then _
      else if packet.ip.isBroadcast then (t.on d).startSending packet .broadcast
      else if packet.ip.isMulticast then (t.on d).startSending packet packet.ip.multicastMac
      else _
    by_cases hlong : maxPayloadLength < packet.payload.length
    · simp only [if_pos hlong]
      let stats := { l.stats with txOversize := l.stats.txOversize + 1 }
      exact Alike.moved { s with layer := { l with stats } } _ id
    · simp only [if_neg hlong]
      cases packet.ip.isBroadcast with
      | true => exact startSending_oblivious packet .broadcast t
      | false =>
        cases packet.ip.isMulticast with
        | true => exact startSending_oblivious packet packet.ip.multicastMac t
        | false => exact Alike.moved { s with layer := { l with sending := .resolve packet } } [] id

theorem resolve_oblivious (packet : Packet) : Oblivious on (resolve · packet) := by
  intro s
  show Alike on fun d => if s.layer.heldLookup.isSome then _ else _
  cases s.layer.heldLookup.isSome with
  | true => exact .idle s
  | false =>
    let out := sendOrHold packet.ip s.table.lookups
    exact Alike.moved { s with
      layer := { s.layer with heldLookup := out.1, sending := .wait packet }
      table := { s.table with lookups := out.2 } } [] id

theorem await_oblivious (packet : Packet) : Oblivious on (await · packet) := by
  intro s
  have htable : ∀ d, (s.on d).table = s.table := fun d => rfl
  unfold await
  simp only [htable]
  cases s.table.answers.take with
  | none => exact .idle s
  | some taken =>
    obtain ⟨answer, answers⟩ := taken
    let t := { s with table := { s.table with answers } }
    dsimp only
    cases answer.mac with
    | some mac => exact startSending_oblivious packet mac t
    | none =>
      let stats := { t.layer.stats with targetUnreachable := t.layer.stats.targetUnreachable + 1 }
      exact Alike.moved
        { t with layer := { t.layer with stats, unreachable := true, sending := .idle } } _ id

theorem sendFragment_oblivious (fragments : List Ethernet.Frame) :
    Oblivious on (sendFragment · fragments) := by
  intro s
  cases fragments with
  | nil => exact .idle { s with layer := { s.layer with sending := .idle } }
  | cons frame rest =>
    let out := sendOrHold frame s.link.outbound
    let stats := { s.layer.stats with txFragments := s.layer.stats.txFragments + 1 }
    let sending : Sending := if rest.isEmpty then .idle else .send rest
    exact Alike.moved { s with
      layer := { s.layer with heldOut := out.1, stats, sending }
      link := { s.link with outbound := out.2 } } [] id

theorem advance_oblivious : Oblivious on advance := by
  intro s
  have hsending : ∀ d, (s.on d).layer.sending = s.layer.sending := fun d => rfl
  unfold advance
  simp only [hsending]
  cases s.layer.sending with
  | idle => exact begin_oblivious s
  | resolve packet => exact resolve_oblivious packet s
  | wait packet => exact await_oblivious packet s
  | send fragments => exact sendFragment_oblivious fragments s

theorem flushLookup_oblivious : Oblivious on flushLookup := fun s => .still s.flushLookup

/-- The sender is the rest of it behind the hold. -/
theorem transmit_eq (s : Station) :
    s.transmit = Outcome.afterHeld s.layer.heldOut s.link.outbound
      (fun heldOut outbound =>
        { s with layer := { s.layer with heldOut }, link := { s.link with outbound } })
      (fun s => s.flushLookup.andThen advance) s := by
  unfold transmit Outcome.afterHeld
  grind [Outcome.andThen_assoc]

theorem transmit_oblivious : Oblivious on transmit :=
  (flushLookup_oblivious.andThen advance_oblivious).afterHeld (·.layer.heldOut) (·.link.outbound)
    (fun s heldOut outbound => { s with
      layer := { s.layer with heldOut }, link := { s.link with outbound } }) transmit_eq

theorem receiveNext_oblivious : Oblivious on receiveNext := by
  intro s
  have hlink : ∀ d, (s.on d).link = s.link := fun d => rfl
  unfold receiveNext
  simp only [hlink]
  cases s.link.inbound.take with
  | none => exact .idle s
  | some taken =>
    obtain ⟨frame, inbound⟩ := taken
    let t := { s with link := { s.link with inbound } }
    obtain ⟨next, packet, log, haccept⟩ := t.layer.accept_on t.localIp frame.payload
    cases packet with
    | none =>
      refine (Alike.moved { t with layer := next } log id).reached fun d => ?_
      obtain ⟨d', hd⟩ := haccept d
      refine ⟨d', ?_⟩
      dsimp only
      rw [show (s.on d).layer.accept (s.on d).localIp frame.payload = _ from hd]
      rfl
    | some packet =>
      let out := sendOrHold packet next.crossbar.inbox
      let stats := { next.stats with rxPackets := next.stats.rxPackets + 1 }
      let passed := { next with
        heldIn := out.1, stats, crossbar := { next.crossbar with inbox := out.2 } }
      refine (Alike.moved { t with layer := passed } log id).reached fun d => ?_
      obtain ⟨d', hd⟩ := haccept d
      refine ⟨d', ?_⟩
      dsimp only
      rw [show (s.on d).layer.accept (s.on d).localIp frame.payload = _ from hd]
      rfl

/-- So is the receiver behind its own. -/
theorem receive_eq (s : Station) :
    s.receive = Outcome.afterHeld s.layer.heldIn s.layer.crossbar.inbox
      (fun heldIn inbox =>
        { s with layer := { s.layer with heldIn, crossbar := { s.layer.crossbar with inbox } } })
      receiveNext s := by
  unfold receive Outcome.afterHeld
  grind

theorem receive_oblivious : Oblivious on receive :=
  receiveNext_oblivious.afterHeld (·.layer.heldIn) (·.layer.crossbar.inbox)
    (fun s heldIn inbox => { s with
      layer := { s.layer with heldIn, crossbar := { s.layer.crossbar with inbox } } }) receive_eq

/-- A step of the layer does the same on every datapath. -/
theorem step_oblivious : Oblivious on step := fun s =>
  have hexchange : Alike on fun d => (s.on d).layer.crossbar.step.map fun crossbar =>
      { s.on d with layer := { (s.on d).layer with unreachable := false, crossbar } } :=
    .still (s.layer.crossbar.step.map fun crossbar =>
      { s with layer := { s.layer with unreachable := false, crossbar } })
  (hexchange.andThen transmit_oblivious).andThen receive_oblivious

end Station
end Ip

/-! ## §2. The echo service. -/

namespace Icmp

/-- The service with the stages of a datapath. -/
def Echo.on (e : Echo) (d : Stages header) : Echo :=
  { e with packetizer := d.packetizer, depacketizer := d.depacketizer }

namespace Station

/-- The station with the stages of a datapath. -/
def on (s : Station) (d : Stages header) : Station := { s with echo := s.echo.on d }

/-- A reply is the same on all widths. -/
theorem replyNext_oblivious : Oblivious on replyNext := by
  intro s
  cases hbuffer : s.echo.buffer with
  | nil =>
    refine (Alike.idle s).reached fun d => ⟨d, ?_⟩
    unfold replyNext
    rw [show (s.on d).echo.buffer = [] from hbuffer]
  | cons request buffer =>
    let octets := header.encode request.replyFields ++ request.payload
    let out := sendOrHold ⟨request.ip, protocol, octets⟩ s.link.outbound
    let stats := { s.echo.stats with echoReplies := s.echo.stats.echoReplies + 1 }
    refine (Alike.moved { s with
      echo := { s.echo with buffer, heldOut := out.1, stats }
      link := { s.link with outbound := out.2 } } [] id).reached fun d =>
        ⟨d.sent header_sound request.replyFields request.payload, ?_⟩
    unfold replyNext
    rw [show (s.on d).echo.buffer = request :: buffer from hbuffer]
    dsimp only
    rw [show (s.on d).echo.packetizer = d.packetizer from rfl, d.packetize header_sound]
    rfl

/-- Replying is the rest of it behind the hold. -/
theorem reply_eq (s : Station) :
    s.reply = Outcome.afterHeld s.echo.heldOut s.link.outbound
      (fun heldOut outbound =>
        { echo := { s.echo with heldOut }, link := { s.link with outbound } })
      replyNext s := by
  unfold reply Outcome.afterHeld
  grind

theorem reply_oblivious : Oblivious on reply :=
  replyNext_oblivious.afterHeld (·.echo.heldOut) (·.link.outbound)
    (fun s heldOut outbound => {
      echo := { s.echo with heldOut }, link := { s.link with outbound } }) reply_eq

/-- A request is read from any width. -/
theorem accept_oblivious (packet : Ip.Packet) : Oblivious on (accept · packet) := by
  intro s
  cases hmessage : (header.split packet.payload).filter fun (fields, _) =>
      fields.get "msgtype" == echoRequest with
  | some message =>
    obtain ⟨fields, payload⟩ := message
    let request : Request := ⟨packet.ip, fields, payload⟩
    let stats := { s.echo.stats with echoRequests := s.echo.stats.echoRequests + 1 }
    let buffer := s.echo.buffer ++ [request]
    refine (Alike.moved { s with echo := { s.echo with buffer, stats } }
      [⟨Log.high, source, s!"echo request from {packet.ip.text}"⟩] id).reached fun d =>
        ⟨d.received (by decide) packet.payload, ?_⟩
    show (s.on d).accept packet = _
    unfold accept
    rw [show (s.on d).echo.depacketizer = d.depacketizer from rfl, d.depacketize (by decide)]
    dsimp only
    rw [hmessage]
    rfl
  | none =>
    let stats := { s.echo.stats with ignored := s.echo.stats.ignored + 1 }
    refine (Alike.moved { s with echo := { s.echo with stats } }
      [⟨Log.medium, source, s!"non echo request message from {packet.ip.text} ignored"⟩]
      id).reached fun d => ⟨d.received (by decide) packet.payload, ?_⟩
    show (s.on d).accept packet = _
    unfold accept
    rw [show (s.on d).echo.depacketizer = d.depacketizer from rfl, d.depacketize (by decide)]
    dsimp only
    rw [hmessage]
    rfl

theorem receive_oblivious : Oblivious on receive := by
  intro s
  have hecho : ∀ d, (s.on d).echo.depth = s.echo.depth ∧ (s.on d).echo.buffer = s.echo.buffer :=
    fun d => ⟨rfl, rfl⟩
  have hlink : ∀ d, (s.on d).link = s.link := fun d => rfl
  unfold receive
  simp only [hecho, hlink]
  by_cases hfull : s.echo.depth ≤ s.echo.buffer.length
  · simp only [if_pos hfull]
    exact .idle s
  · simp only [if_neg hfull]
    cases s.link.inbound.take with
    | none => exact .idle s
    | some taken =>
      obtain ⟨packet, inbound⟩ := taken
      exact accept_oblivious packet { s with link := { s.link with inbound } }

/-- A step of the service does the same on every datapath. -/
theorem step_oblivious : Oblivious on step := reply_oblivious.andThen receive_oblivious

end Station
end Icmp

end NetBoard
