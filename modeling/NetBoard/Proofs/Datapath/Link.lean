/-
  NetBoard.Proofs.Datapath.Link
  ─────────────────────────────
  **MEDIA ACCESS AND RESOLUTION ON ANY DATAPATH.**

  The MAC and the resolver meet bus words where they put their headers on and
  take them off.  The octets come out the same on every datapath, and all else
  they do on octets: they are oblivious of it.

  Main definitions:

      Mac.on, Resolver.on     — the layer with the stages of a datapath

  Main statements:

      Mac.step_oblivious      — a MAC whose wire carries frames alone
      Station.transition_on   — one transition of the resolver
      Station.step_oblivious  — and one step
-/
import NetBoard.Proofs.Arp.Machine
import NetBoard.Proofs.Arp.Message
import NetBoard.Proofs.Datapath.Oblivious
import NetBoard.Proofs.Ethernet.Wire

namespace NetBoard

open Outcome (Alike Oblivious)

/-! ## §1. Media access. -/

namespace Ethernet.Mac

/-- What a MAC has of the datapath.  The stages of the preamble are at rest
while the wire carries frames alone. -/
structure Datapath where
  stages : Stages header
  preambler : Packetizer
  deambler : Depacketizer

/-- The MAC with the stages of a datapath, on a wire that carries frames alone. -/
def on (mac : Mac) (d : Datapath) : Mac :=
  { mac with
    bareWire := false
    packetizer := d.stages.packetizer
    depacketizer := d.stages.depacketizer
    preambler := d.preambler
    deambler := d.deambler }

variable (mac : Mac)

/-- A frame has the same octets on all widths. -/
theorem wireImage_on (frame : Frame) (d : Datapath) :
    (mac.on d).wireImage frame =
      (mac.on { d with stages := d.stages.sent header_sound frame.fields frame.payload },
        frame.padded.octets) := by
  unfold wireImage
  rw [show (mac.on d).packetizer = d.stages.packetizer from rfl, d.stages.packetize header_sound]
  dsimp only
  rw [show header.encode frame.fields ++ frame.payload = frame.octets from rfl, frame.pad_octets]
  rfl

theorem transmitNext_oblivious : Oblivious on transmitNext := by
  intro mac
  cases hidle : mac.gap.isIdle with
  | false =>
    refine ⟨.moved { mac with gap := mac.gap.tick }, fun d => ⟨d, ?_⟩⟩
    show (mac.on d).transmitNext = _
    unfold transmitNext
    rw [show (mac.on d).gap = mac.gap from rfl, hidle]
    rfl
  | true =>
    cases htake : mac.crossbar.outbox.take with
    | none =>
      refine ⟨.idle mac, fun d => ⟨d, ?_⟩⟩
      show (mac.on d).transmitNext = _
      unfold transmitNext
      rw [show (mac.on d).gap = mac.gap from rfl, hidle,
        show (mac.on d).crossbar = mac.crossbar from rfl, htake]
      rfl
    | some taken =>
      obtain ⟨frame, outbox⟩ := taken
      let send (image : Mac × Bytes) : Outcome Mac :=
        let out := sendOrHold image.2 image.1.wireOut
        let type := Text.hexTagged 4 frame.type.toNat
        .moved { image.1 with
            heldOut := out.1
            wireOut := out.2
            stats := { image.1.stats with txFrames := image.1.stats.txFrames + 1 } }
          [⟨Log.extensive, source,
            s!"tx frame to {frame.target.text}, type {type}, {image.2.length} bytes"⟩]
      have hsend : ∀ m : Mac, m.gap.isIdle = true →
          m.crossbar.outbox.take = some (frame, outbox) → m.transmitNext =
            send ({ m with crossbar := { m.crossbar with outbox } }.wireImage frame) := by
        intro m hidle htake
        unfold transmitNext
        rw [hidle, htake]
        rfl
      let taken : Mac := { mac with crossbar := { mac.crossbar with outbox } }
      exact ⟨send (taken, frame.padded.octets), fun d => ⟨_,
        (hsend (mac.on d) hidle htake).trans (congrArg send (taken.wireImage_on frame d))⟩⟩

/-- The sender is the rest of it behind the hold. -/
theorem transmit_eq (mac : Mac) :
    mac.transmit = Outcome.afterHeld mac.heldOut mac.wireOut
      (fun heldOut wireOut => { mac with heldOut, wireOut }) transmitNext mac := by
  unfold transmit Outcome.afterHeld
  grind

theorem transmit_oblivious : Oblivious on transmit :=
  transmitNext_oblivious.afterHeld (·.heldOut) (·.wireOut)
    (fun mac heldOut wireOut => { mac with heldOut, wireOut }) transmit_eq

/-- What is read in received octets does not depend on the datapath. -/
theorem accept_on (bs : Bytes) :
    ∃ (next : Mac) (frame : Option Frame) (log : List Log.Line), ∀ d, ∃ d',
      (mac.on d).accept bs = (next.on d', frame, log) := by
  let runts := mac.stats.runts + if isRunt minFrameLength bs then 1 else 0
  let parsed : Mac := { mac with stats := { mac.stats with runts } }
  have hunwrap : ∀ d : Datapath, (mac.on d).unwrap bs = (mac.on d, .ok bs) := fun d => rfl
  have hstage : ∀ d : Datapath, (mac.on d).depacketizer = d.stages.depacketizer := fun d => rfl
  cases hsplit : header.split bs with
  | none =>
    refine ⟨{ parsed with stats := Defect.truncated.count parsed.stats }, none,
      [⟨Log.medium, source, s!"rx frame dropped, {Defect.truncated.reason}"⟩], fun d =>
      ⟨{ d with stages := d.stages.received (by decide) bs }, ?_⟩⟩
    unfold accept
    rw [hunwrap]
    unfold parse
    dsimp only
    rw [hstage, d.stages.depacketize (by decide), hsplit]
    rfl
  | some packet =>
    obtain ⟨values, payload⟩ := packet
    refine ⟨parsed, some (Frame.ofFields values payload), [], fun d =>
      ⟨{ d with stages := d.stages.received (by decide) bs }, ?_⟩⟩
    unfold accept
    rw [hunwrap]
    unfold parse
    dsimp only
    rw [hstage, d.stages.depacketize (by decide), hsplit]
    rfl

/-- Octets of the wire are read alike on all widths. -/
theorem receiveNext_oblivious : Oblivious on receiveNext := by
  intro mac
  have hwire : ∀ d, (mac.on d).wireIn = mac.wireIn := fun d => rfl
  cases htake : mac.wireIn.take with
  | none =>
    refine (Alike.idle mac).reached fun d => ⟨d, ?_⟩
    unfold receiveNext
    rw [hwire, htake]
  | some taken =>
    obtain ⟨bs, wireIn⟩ := taken
    have htaken : ∀ d, { mac.on d with wireIn } = on { mac with wireIn } d := fun d => rfl
    obtain ⟨next, frame, log, haccept⟩ := accept_on { mac with wireIn } bs
    cases frame with
    | none =>
      refine (Alike.moved next log id).reached fun d => ?_
      obtain ⟨d', hd⟩ := haccept d
      refine ⟨d', ?_⟩
      unfold receiveNext
      rw [hwire, htake]
      dsimp only
      rw [htaken, hd]
      rfl
    | some frame =>
      let passed := sendOrHold frame next.crossbar.inbox
      let received : Mac := { next with
        heldIn := passed.1
        stats := { next.stats with rxFrames := next.stats.rxFrames + 1 }
        crossbar := { next.crossbar with inbox := passed.2 } }
      refine (Alike.moved received log id).reached fun d => ?_
      obtain ⟨d', hd⟩ := haccept d
      refine ⟨d', ?_⟩
      unfold receiveNext
      rw [hwire, htake]
      dsimp only
      rw [htaken, hd]
      rfl

/-- The receiver is the rest of it behind the hold. -/
theorem receive_eq (mac : Mac) :
    mac.receive = Outcome.afterHeld mac.heldIn mac.crossbar.inbox
      (fun heldIn inbox => { mac with heldIn, crossbar := { mac.crossbar with inbox } })
      receiveNext mac := by
  unfold receive Outcome.afterHeld
  grind

theorem receive_oblivious : Oblivious on receive :=
  receiveNext_oblivious.afterHeld (·.heldIn) (·.crossbar.inbox)
    (fun mac heldIn inbox => { mac with heldIn, crossbar := { mac.crossbar with inbox } }) receive_eq

/-- A step of a MAC on a wire that carries frames alone does the same on every datapath. -/
theorem step_oblivious : Oblivious on step := fun mac =>
  have hexchange : Alike on fun d => (mac.on d).crossbar.step.map fun crossbar =>
      { mac.on d with crossbar } :=
    .still (mac.crossbar.step.map fun crossbar => { mac with crossbar })
  (hexchange.andThen transmit_oblivious).andThen receive_oblivious

end Ethernet.Mac

/-! ## §2. The resolver. -/

namespace Arp

namespace Resolver

/-- The resolver with the stages of a datapath. -/
def on (r : Resolver) (d : Stages header) : Resolver :=
  { r with packetizer := d.packetizer, depacketizer := d.depacketizer }

variable (r : Resolver)

/-- The resolver after a message for it has been counted. -/
def counted (message : Message) : Resolver :=
  { r with
    stats := match message.operation with
      | .request => { r.stats with rxRequests := r.stats.rxRequests + 1 }
      | .reply => { r.stats with rxReplies := r.stats.rxReplies + 1 } }

/-- What is heard in a frame does not depend on the datapath. -/
theorem hear_on (localIp : Ipv4) (frame : Ethernet.Frame) :
    ∃ (next : Resolver) (message : Option Message) (log : List Log.Line), ∀ d, ∃ d',
      (r.on d).hear localIp frame = (next.on d', message, log) := by
  let invalid : Resolver := { r with stats := { r.stats with invalid := r.stats.invalid + 1 } }
  cases hsplit : header.split frame.payload with
  | none =>
    refine ⟨invalid, none, [], fun d => ⟨d.received (by decide) frame.payload, ?_⟩⟩
    unfold hear
    rw [show (r.on d).depacketizer = d.depacketizer from rfl, d.depacketize (by decide), hsplit]
    rfl
  | some packet =>
    obtain ⟨values, payload⟩ := packet
    cases hmessage : (Message.ofFields? values).filter (·.targetIp == localIp) with
    | none =>
      let target := values.ip "target_ip"
      refine ⟨invalid, none,
        [⟨Log.extensive, source, s!"ignoring packet for {target.text}"⟩],
        fun d => ⟨d.received (by decide) frame.payload, ?_⟩⟩
      unfold hear
      rw [show (r.on d).depacketizer = d.depacketizer from rfl, d.depacketize (by decide), hsplit]
      dsimp only
      rw [hmessage]
      rfl
    | some message =>
      refine ⟨r.counted message, some message, [],
        fun d => ⟨d.received (by decide) frame.payload, ?_⟩⟩
      unfold hear
      rw [show (r.on d).depacketizer = d.depacketizer from rfl, d.depacketize (by decide), hsplit]
      dsimp only
      rw [hmessage]
      rfl

/-- Neither does the frame of a message. -/
theorem compose_on (localIp : Ipv4) (operation : Operation) (mac : MacAddress) (ip : Ipv4) :
    ∃ (frame : Ethernet.Frame) (log : List Log.Line), ∀ d, ∃ d',
      (r.on d).compose localIp operation mac ip = (r.on d', frame, log) := by
  let message : Message :=
    { operation, senderMac := r.mac, senderIp := localIp, targetMac := mac, targetIp := ip }
  let bs := header.encode message.fields ++ []
  let payload := bs ++ List.replicate (Ethernet.minPayloadLength - bs.length) 0
  refine ⟨{ target := mac, sender := r.mac, type := Ethernet.typeArp, payload },
    [⟨Log.high, source, s!"sending {operation.name} for {ip.text} to {mac.text}"⟩],
    fun d => ⟨d.sent header_sound message.fields [], ?_⟩⟩
  unfold compose
  rw [show (r.on d).packetizer = d.packetizer from rfl]
  dsimp only
  rw [d.packetize header_sound]
  rfl

end Resolver

namespace Station

/-- The station with the stages of a datapath. -/
def on (s : Station) (d : Stages header) : Station := { s with resolver := s.resolver.on d }

variable (s : Station)

/-- A message is sent alike on all widths. -/
theorem send_on (operation : Operation) (mac : MacAddress) (ip : Ipv4) :
    ∃ (next : Station) (log : List Log.Line), ∀ d, ∃ d',
      (s.on d).send operation mac ip = (next.on d', log) := by
  obtain ⟨frame, log, hcompose⟩ := s.resolver.compose_on s.localIp operation mac ip
  let out := sendOrHold frame s.link.outbound
  refine ⟨{ s with
      resolver := { s.resolver with heldFrame := out.1 }
      link := { s.link with outbound := out.2 } }, log, fun d => ?_⟩
  obtain ⟨d', hd⟩ := hcompose d
  refine ⟨d', ?_⟩
  unfold send
  rw [show (s.on d).resolver = s.resolver.on d from rfl, show (s.on d).localIp = s.localIp from rfl,
    hd]
  rfl

/-- A frame is heard alike on all widths. -/
theorem hearFrame_on (frame : Ethernet.Frame) :
    ∃ (next : Station) (message : Option Message) (log : List Log.Line), ∀ d, ∃ d',
      (s.on d).hearFrame frame = (next.on d', message, log) := by
  obtain ⟨r, message, log, hhear⟩ := s.resolver.hear_on s.localIp frame
  cases message with
  | none =>
    refine ⟨{ s with resolver := r }, none, log, fun d => ?_⟩
    obtain ⟨d', hd⟩ := hhear d
    refine ⟨d', ?_⟩
    unfold hearFrame
    rw [show (s.on d).resolver.hear (s.on d).localIp frame = _ from hd]
    rfl
  | some m =>
    by_cases hidle : r.phase = .idle
    · refine ⟨{ s with resolver := r }, some m, log, fun d => ?_⟩
      obtain ⟨d', hd⟩ := hhear d
      refine ⟨d', ?_⟩
      unfold hearFrame
      rw [show (s.on d).resolver.hear (s.on d).localIp frame = _ from hd]
      exact if_pos hidle
    · let stats := { r.stats with droppedBusy := r.stats.droppedBusy + 1 }
      refine ⟨{ s with resolver := { r with stats } }, none,
        log ++ [⟨Log.medium, Resolver.source,
          s!"table busy, packet from {m.senderIp.text} dropped"⟩], fun d => ?_⟩
      obtain ⟨d', hd⟩ := hhear d
      refine ⟨d', ?_⟩
      unfold hearFrame
      rw [show (s.on d).resolver.hear (s.on d).localIp frame = _ from hd]
      exact if_neg hidle

/-- A transition with the station it leads to on a datapath. -/
def landed (d : Stages header) (result : Station × Phase × List Log.Line) :
    Station × Phase × List Log.Line :=
  (result.1.on d, result.2)

variable {s} {now : Nat} {event : Option Message}

/-- The machine waits on every datapath. -/
theorem Waits.on (hw : Waits now s event) (d : Stages header) : Waits now (s.on d) event :=
  hw.of_same rfl rfl rfl rfl rfl

/-- The machine makes the same transition on every datapath; only a frame that is sent
moves the stages. -/
theorem Transition.on {t : Station} {phase : Phase} {log : List Log.Line}
    (ht : Transition now s event t phase log) :
    ∃ (next : Station) (log : List Log.Line), ∀ d, ∃ d',
      Transition now (s.on d) event (next.on d') phase log := by
  cases ht with
  | told m hphase hrequest => exact ⟨_, _, fun d => ⟨d, .told m hphase hrequest⟩⟩
  | heard m hphase hreply hwaits => exact ⟨_, _, fun d => ⟨d, .heard m hphase hreply hwaits⟩⟩
  | ignored m hphase hreply hfree => exact ⟨_, _, fun d => ⟨d, .ignored m hphase hreply hfree⟩⟩
  | gaveUp deadline hphase hwaits hdue hmost =>
    let r := { s.resolver.settle with
      stats := { s.resolver.stats with failed := s.resolver.stats.failed + 1 } }
    let line : Log.Line :=
      ⟨Log.medium, Resolver.source, s!"no reply from {s.resolver.target.text}, giving up"⟩
    exact ⟨{ s with resolver := r }, [line],
      fun d => ⟨d, .gaveUp deadline hphase hwaits hdue hmost⟩⟩
  | retried deadline hphase hwaits hdue hmore =>
    exact ⟨_, _, fun d => ⟨d, .retried deadline hphase hwaits hdue hmore⟩⟩
  | took target lookups hphase hfree htake =>
    let next := { s with
      table := { s.table with lookups }
      resolver := { s.resolver with target, requests := 0 } }
    exact ⟨next, _, fun d => ⟨d, .took target lookups hphase hfree htake⟩⟩
  | replied _ ip mac hphase hslot =>
    obtain ⟨next, log, hsend⟩ := s.send_on .reply mac ip
    let stats := { next.resolver.stats with txReplies := next.resolver.stats.txReplies + 1 }
    refine ⟨{ next with resolver := { next.resolver with stats } }, log, fun d => ?_⟩
    obtain ⟨d', hd⟩ := hsend d
    have hreplied : Transition now (s.on d) event _ _ _ := .replied event ip mac hphase hslot
    rw [hd] at hreplied
    exact ⟨d', hreplied⟩
  | matched _ mac hphase => exact ⟨_, _, fun d => ⟨d, .matched _ mac hphase⟩⟩
  | mismatched _ ip mac hphase hother =>
    exact ⟨_, _, fun d => ⟨d, .mismatched _ ip mac hphase hother⟩⟩
  | learned _ ip mac hphase =>
    let r := { s.resolver.settle with
      cache := s.resolver.cache.insert ip mac now
      stats := { s.resolver.stats with resolved := s.resolver.stats.resolved + 1 } }
    exact ⟨{ s with resolver := r }, _, fun d => ⟨d, .learned _ ip mac hphase⟩⟩
  | remembered _ mac hphase hfound =>
    let cache := (s.resolver.cache.lookup s.resolver.target now).1
    exact ⟨{ s with resolver := { s.resolver with cache } }, _,
      fun d => ⟨d, .remembered _ mac hphase hfound⟩⟩
  | missed _ hphase hmissing =>
    let cache := (s.resolver.cache.lookup s.resolver.target now).1
    exact ⟨{ s with resolver := { s.resolver with cache } }, _,
      fun d => ⟨d, .missed _ hphase hmissing⟩⟩
  | asked _ hphase hslot =>
    obtain ⟨next, log, hsend⟩ := s.send_on .request .broadcast s.resolver.target
    let r := next.resolver
    let stats := { r.stats with txRequests := r.stats.txRequests + 1 }
    let deadline := some (now + s.resolver.parameters.timeout)
    refine ⟨{ next with resolver := { r with requests := r.requests + 1, deadline, stats } }, log,
      fun d => ?_⟩
    obtain ⟨d', hd⟩ := hsend d
    have hasked : Transition now (s.on d) event _ _ _ := .asked event hphase hslot
    rw [show (s.on d).send _ _ (s.on d).resolver.target = _ from hd] at hasked
    exact ⟨d', hasked⟩
  | presented _ answer hphase hslot =>
    let out := sendOrHold answer s.table.answers
    exact ⟨{ s with
        resolver := { s.resolver with heldAnswer := out.1 }
        table := { s.table with answers := out.2 } }, _,
      fun d => ⟨d, .presented _ answer hphase hslot⟩⟩

variable (s)

/-- A transition does the same on every datapath. -/
theorem transition_on (now : Nat) (event : Option Message) :
    ∃ result : Option (Station × Phase × List Log.Line), ∀ d, ∃ d',
      (s.on d).transition now event = result.map (landed d') := by
  rcases moves_or_waits now s event with ⟨t, phase, log, hmoves⟩ | hwaits
  · obtain ⟨next, log, hsame⟩ := hmoves.on
    refine ⟨some (next, phase, log), fun d => ?_⟩
    obtain ⟨d', hd⟩ := hsame d
    exact ⟨d', hd.made⟩
  · exact ⟨none, fun d => ⟨d, (hwaits.on d).none_made⟩⟩

/-- A turn is the same on all widths, whether the resolver waits or not. -/
theorem turn_oblivious (now : Nat) (event : Option Message) : Oblivious on (turn now event) := by
  intro s
  obtain ⟨result, htransition⟩ := s.transition_on now event
  cases result with
  | none =>
    refine ⟨.idle s, fun d => ⟨d, ?_⟩⟩
    obtain ⟨d', hd⟩ := htransition d
    show (s.on d).turn now event = _
    unfold turn
    rw [hd]
    rfl
  | some result =>
    obtain ⟨next, phase, log⟩ := result
    let before := s.resolver.phase
    let change : List Log.Line :=
      if phase = before then []
      else [⟨Log.extensive, Resolver.source, s!"table {before.text} -> {phase.text}"⟩]
    refine ⟨.moved { next with resolver := { next.resolver with phase } } (log ++ change),
      fun d => ?_⟩
    obtain ⟨d', hd⟩ := htransition d
    refine ⟨d', ?_⟩
    show (s.on d).turn now event = _
    unfold turn
    rw [hd]
    rfl

theorem flushHeld_oblivious : Oblivious on flushHeld := fun s => .still s.flushHeld

/-- A step of the resolver does the same on every datapath. -/
theorem step_oblivious (now : Nat) : Oblivious on (step now) := by
  refine flushHeld_oblivious.andThen fun s => ?_
  have hlink : ∀ d, (s.on d).link = s.link := fun d => rfl
  cases htake : s.link.inbound.take with
  | none =>
    refine (turn_oblivious now none s).reached fun d => ⟨d, ?_⟩
    rw [hlink, htake]
  | some taken =>
    obtain ⟨frame, inbound⟩ := taken
    have htaken : ∀ d, { s.on d with link := { s.link with inbound } } =
        on { s with link := { s.link with inbound } } d := fun d => rfl
    obtain ⟨next, event, log, hhear⟩ :=
      { s with link := { s.link with inbound } }.hearFrame_on frame
    refine ((Alike.moved next log id).andThen (turn_oblivious now event)).reached fun d => ?_
    obtain ⟨d', hd⟩ := hhear d
    refine ⟨d', ?_⟩
    rw [hlink, htake]
    dsimp only
    rw [htaken, hd]
    rfl

end Station
end Arp

end NetBoard
