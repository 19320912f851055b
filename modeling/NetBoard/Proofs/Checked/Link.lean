/-
  NetBoard.Proofs.Checked.Link
  ────────────────────────────
  **CROSSBARS AND MEDIA ACCESS, CHECKED.**

  A crossbar counts its turns modulo the number of its subscribers, and asks
  for a remainder only while there are some.  Nothing is put into a hold that
  is not free: what is held leaves first, or nothing else is done.  A frame is
  cut before its check sequence only when it is long enough to have one.

  Main statements:

      Crossbar.step!_eq    — a step of any crossbar
      Mac.Formed.step!     — a step of a MAC, with whatever is on the wire
-/
import NetBoard.Proofs.Checked.Stages
import NetBoard.Proofs.Checked.Sums
import NetBoard.Proofs.Datapath.Link
import NetBoard.Proofs.Ethernet.Wire

namespace NetBoard

open Checked

/-! ## §1. Crossbars. -/

namespace Crossbar

variable {α : Type}

/-- What finds no room is put into the hold. -/
def deliver! [Keyed α] (xb : Crossbar α) (item : α) : Checked (Outcome (Crossbar α)) := do
  let key := Keyed.key item
  match xb.link? key with
  | none => return xb.deliver item
  | some link =>
    let (offer, inbound) := link.inbound.offer item
    let heldIn ← if offer = .full then put xb.heldIn item else pure xb.heldIn
    let xb := xb.setLink key { link with inbound }
    return .moved
      { xb with heldIn, stats := { xb.stats with dispatched := xb.stats.dispatched + 1 } }

/-- The oldest record that was received. -/
def dispatchNext! [Keyed α] (xb : Crossbar α) : Checked (Outcome (Crossbar α)) :=
  match xb.inbox.take with
  | none => return .idle xb
  | some (item, inbox) => { xb with inbox }.deliver! item

/-- A record that is held goes first; without room for it nothing is delivered. -/
def dispatch! [Keyed α] (xb : Crossbar α) : Checked (Outcome (Crossbar α)) :=
  match xb.heldIn with
  | none => xb.dispatchNext!
  | some item =>
    let key := Keyed.key item
    match xb.link? key with
    | none => { xb with heldIn := none }.dispatchNext!
    | some link =>
      match flush (some item) link.inbound with
      | (false, _, _) => return .idle xb
      | (true, heldIn, inbound) =>
        let xb := { xb.setLink key { link with inbound } with heldIn }
        andThen (return .moved xb) dispatchNext!

/-- The subscribers are asked one after the other, from the one whose turn it is. -/
def firstReady! (ports : List (Port α)) (turn : Nat) :
    List Nat → Checked (Option (Nat × α × Port α))
  | [] => return none
  | i :: rest => do
    let place ← rem (turn + i) ports.length
    let port ← index ports place
    match port.link.outbound.take with
    | none => firstReady! ports turn rest
    | some (item, outbound) =>
      return some (place, item, { port with link := { port.link with outbound } })

/-- The record of the first subscriber that has one, and the turn behind it. -/
def arbitrateNext! (xb : Crossbar α) : Checked (Outcome (Crossbar α)) := do
  match ← firstReady! xb.ports xb.turn (List.range xb.ports.length) with
  | none => return .idle xb
  | some (i, item, port) =>
    let turn ← rem (i + 1) xb.ports.length
    let (heldOut, outbox) ← send xb.heldOut item xb.outbox
    return .moved { xb with
      ports := xb.ports.set i port
      turn
      stats := { xb.stats with arbitrated := xb.stats.arbitrated + 1 }
      heldOut, outbox }

/-- A record that is held goes first; without room for it nobody is asked. -/
def arbitrate! (xb : Crossbar α) : Checked (Outcome (Crossbar α)) :=
  match xb.heldOut with
  | none => xb.arbitrateNext!
  | some item =>
    match flush (some item) xb.outbox with
    | (false, _, _) => return .idle xb
    | (true, heldOut, outbox) => { xb with heldOut, outbox }.arbitrateNext!

/-- Records go up to the subscribers, then down from them. -/
def step! [Keyed α] (xb : Crossbar α) : Checked (Outcome (Crossbar α)) :=
  andThen xb.dispatch! arbitrate!

/-- With a free hold any record is delivered, held or dropped. -/
theorem deliver!_eq [Keyed α] {xb : Crossbar α} (hfree : xb.heldIn = none) (item : α) :
    xb.deliver! item = .ok (xb.deliver item) := by
  unfold deliver! deliver
  dsimp only
  cases xb.link? (Keyed.key item) with
  | none => rfl
  | some link =>
    dsimp only [sendOrHold, flush]
    cases link.inbound.offer item with
    | mk offer inbound =>
      -- the hold is needed only where there is no room, and is left as it is otherwise
      cases offer with
      | full =>
        dsimp only
        rw [if_pos rfl, put_ok hfree]
        rfl
      | sent =>
        dsimp only
        rw [if_neg (by decide), hfree]
        rfl
      | disconnected =>
        dsimp only
        rw [if_neg (by decide), hfree]
        rfl

/-- So is the oldest one that was received. -/
theorem dispatchNext!_eq [Keyed α] {xb : Crossbar α} (hfree : xb.heldIn = none) :
    xb.dispatchNext! = .ok xb.dispatchNext := by
  unfold dispatchNext! dispatchNext
  cases xb.inbox.take with
  | none => rfl
  | some taken =>
    obtain ⟨item, inbox⟩ := taken
    refine deliver!_eq ?_ item
    exact hfree

/-- The hold is free where a record is put into it. -/
theorem dispatch!_eq [Keyed α] (xb : Crossbar α) : xb.dispatch! = .ok xb.dispatch := by
  unfold dispatch! dispatch
  cases hheld : xb.heldIn with
  | none => exact dispatchNext!_eq hheld
  | some item =>
    dsimp only
    cases xb.link? (Keyed.key item) with
    | none => exact dispatchNext!_eq rfl
    | some link =>
      dsimp only
      cases hflush : flush (some item) link.inbound with
      | mk gone rest =>
        obtain ⟨left, inbound⟩ := rest
        cases gone with
        | false => rfl
        | true => exact andThen_ok (dispatchNext!_eq (flush_left hflush))

/-- The places asked are those of subscribers. -/
theorem firstReady!_eq {ports : List (Port α)} (hports : 0 < ports.length) (turn : Nat)
    (l : List Nat) :
    firstReady! ports turn l =
      .ok (firstReady ports (l.map fun i => (turn + i) % ports.length)) := by
  induction l with
  | nil => rfl
  | cons i rest ih =>
    have hplace : (turn + i) % ports.length < ports.length := Nat.mod_lt _ hports
    rw [firstReady!, rem_ok (Nat.ne_of_gt hports), ok_bind,
      index_ok (List.getElem?_eq_getElem hplace), ok_bind, List.map_cons, firstReady,
      List.getElem?_eq_getElem hplace]
    dsimp only
    cases (ports[(turn + i) % ports.length]).link.outbound.take with
    | none => exact ih
    | some taken => rfl

/-- With a free hold arbitration runs, also while there is no subscriber. -/
theorem arbitrateNext!_eq {xb : Crossbar α} (hfree : xb.heldOut = none) :
    xb.arbitrateNext! = .ok xb.arbitrateNext := by
  unfold arbitrateNext! arbitrateNext
  by_cases hports : 0 < xb.ports.length
  · rw [firstReady!_eq hports, ok_bind]
    show (match firstReady xb.ports xb.order with | none => _ | some (i, item, port) => _) = _
    cases firstReady xb.ports xb.order with
    | none => rfl
    | some found =>
      obtain ⟨i, item, port⟩ := found
      dsimp only
      rw [rem_ok (Nat.ne_of_gt hports), ok_bind, send_ok hfree]
      rfl
  · -- nobody is asked
    have hnone : xb.ports.length = 0 := by omega
    unfold order
    rw [hnone]
    rfl

/-- The hold is free where a record is put into it. -/
theorem arbitrate!_eq (xb : Crossbar α) : xb.arbitrate! = .ok xb.arbitrate := by
  unfold arbitrate! arbitrate
  cases hheld : xb.heldOut with
  | none => exact arbitrateNext!_eq hheld
  | some item =>
    dsimp only
    cases hflush : flush (some item) xb.outbox with
    | mk gone rest =>
      obtain ⟨left, outbox⟩ := rest
      cases gone with
      | false => rfl
      | true => exact arbitrateNext!_eq (flush_left hflush)

/-- No record stops a crossbar. -/
theorem step!_eq [Keyed α] (xb : Crossbar α) : xb.step! = .ok xb.step := by
  rw [step!, dispatch!_eq]
  exact andThen_ok (arbitrate!_eq _)

end Crossbar

/-! ## §2. Media access. -/

namespace Ethernet

/-- No field of the header lies outside of it, or is too wide for the machine. -/
theorem header_proper : header.Proper := by decide

/-- The preamble is one field of 64 bits, and no field may be wider. -/
theorem Preamble.header_proper : Preamble.header.Proper := by decide

/-- One cycle less, while there are some left. -/
def Gap.tick! (g : Gap) : Checked Gap := do
  if 0 < g.left then return { g with left := ← sub g.left 1 } else return g

/-- Nothing is taken from a gap that is over. -/
theorem Gap.tick!_eq (g : Gap) : g.tick! = .ok g.tick := by
  unfold tick! tick
  split
  · next h =>
    rw [sub_ok h]
    rfl
  · next h =>
    obtain ⟨cycles, left⟩ := g
    obtain rfl : left = 0 := by simpa using h
    rfl

namespace Mac

/-- The octets of a frame on either kind of wire. -/
def wireImage! (mac : Mac) (frame : Frame) : Checked (Mac × Bytes) := do
  let (packetizer, bs) ← mac.packetizer.packetize! frame.fields frame.payload
  let bs := pad minFrameLength bs
  if mac.bareWire then
    let (preambler, bs) ← mac.preambler.packetize!
      (({} : Fields).set "preamble" Preamble.value) (← Crc32.append! bs)
    return ({ mac with packetizer, preambler, gap := mac.gap.start }, bs)
  else return ({ mac with packetizer }, bs)

/-- The next frame is put into the hold, which must be free. -/
def transmitNext! (mac : Mac) : Checked (Outcome Mac) := do
  if !mac.gap.isIdle then return .moved { mac with gap := ← mac.gap.tick! }
  else
    match mac.crossbar.outbox.take with
    | none => return .idle mac
    | some (frame, outbox) =>
      let (mac, bs) ← { mac with crossbar := { mac.crossbar with outbox } }.wireImage! frame
      let (heldOut, wireOut) ← send mac.heldOut bs mac.wireOut
      let stats := { mac.stats with txFrames := mac.stats.txFrames + 1 }
      let type := Text.hexTagged 4 frame.type.toNat
      return .moved { mac with heldOut, wireOut, stats }
        [⟨Log.extensive, source,
          s!"tx frame to {frame.target.text}, type {type}, {bs.length} bytes"⟩]

/-- What is held goes first. -/
def transmit! (mac : Mac) : Checked (Outcome Mac) :=
  afterHeld mac.heldOut mac.wireOut (fun heldOut wireOut => { mac with heldOut, wireOut })
    transmitNext! mac

/-- The preamble is taken off, and the check sequence behind a frame that has a valid one. -/
def unwrap! (mac : Mac) (bs : Bytes) : Checked (Mac × Except Defect Bytes) := do
  if mac.bareWire then
    let (deambler, packet) ← mac.deambler.depacketize! bs
    let mac := { mac with deambler }
    match packet.bind fun (values, frame) =>
        if values.get "preamble" = Preamble.value then some frame else none with
    | none => return (mac, .error .preamble)
    | some frame =>
      if ← Crc32.valid! frame then
        return (mac, .ok (frame.take (← sub frame.length Crc32.length)))
      else return (mac, .error .crc)
  else return (mac, .ok bs)

/-- The header is taken off, and short frames are counted. -/
def parse! (mac : Mac) (bs : Bytes) : Checked (Mac × Except Defect Frame) := do
  let runts := mac.stats.runts + if isRunt minFrameLength bs then 1 else 0
  let (depacketizer, packet) ← mac.depacketizer.depacketize! bs
  return ({ mac with depacketizer, stats := { mac.stats with runts } },
    match packet with
    | none => .error .truncated
    | some (values, payload) => .ok (Frame.ofFields values payload))

/-- What octets of the wire hold: a frame, or a defect that is counted. -/
def accept! (mac : Mac) (bs : Bytes) : Checked (Mac × Option Frame × List Log.Line) := do
  let (mac, frame) ←
    match ← mac.unwrap! bs with
    | (mac, .ok bs) => mac.parse! bs
    | (mac, .error d) => pure (mac, .error d)
  match frame with
  | .ok frame => return (mac, some frame, [])
  | .error d =>
    return ({ mac with stats := d.count mac.stats }, none,
      [⟨Log.medium, source, s!"rx frame dropped, {d.reason}"⟩])

/-- The next octets of the wire; their frame is put into the hold of the crossbar. -/
def receiveNext! (mac : Mac) : Checked (Outcome Mac) := do
  match mac.wireIn.take with
  | none => return .idle mac
  | some (bs, wireIn) =>
    match ← { mac with wireIn }.accept! bs with
    | (mac, none, log) => return .moved mac log
    | (mac, some frame, log) =>
      let (heldIn, inbox) ← send mac.heldIn frame mac.crossbar.inbox
      let stats := { mac.stats with rxFrames := mac.stats.rxFrames + 1 }
      return .moved { mac with heldIn, stats, crossbar := { mac.crossbar with inbox } } log

/-- The frame that is held goes first. -/
def receive! (mac : Mac) : Checked (Outcome Mac) :=
  afterHeld mac.heldIn mac.crossbar.inbox
    (fun heldIn inbox => { mac with heldIn, crossbar := { mac.crossbar with inbox } })
    receiveNext! mac

/-- The crossbar, the sender and the receiver, in this order. -/
def step! (mac : Mac) : Checked (Outcome Mac) :=
  andThen (andThen (map (fun crossbar => { mac with crossbar }) mac.crossbar.step!) transmit!)
    receive!

variable {mac : Mac}

/-- Any frame is made ready for the wire. -/
theorem Formed.wireImage! (hm : mac.Formed) (frame : Frame) :
    mac.wireImage! frame = .ok (mac.wireImage frame) := by
  unfold Mac.wireImage! wireImage
  rw [hm.packetizer.packetize!_eq header_proper, ok_bind]
  dsimp only
  cases mac.bareWire with
  | false => rfl
  | true =>
    rw [if_pos rfl, if_pos rfl, Crc32.append!_eq, ok_bind,
      hm.preambler.packetize!_eq Preamble.header_proper]
    rfl

/-- Any frame is sent, or a cycle of the gap goes by. -/
theorem Formed.transmitNext! (hm : mac.Formed) (hfree : mac.heldOut = none) :
    Runs Formed mac.transmitNext! mac.transmitNext := by
  unfold Mac.transmitNext! transmitNext
  by_cases hidle : mac.gap.isIdle = true
  · rw [hidle, Bool.not_true, if_neg Bool.false_ne_true, if_neg Bool.false_ne_true]
    cases mac.crossbar.outbox.take with
    | none => exact .pure hm
    | some taken =>
      obtain ⟨frame, outbox⟩ := taken
      let next : Mac := { mac with crossbar := { mac.crossbar with outbox } }
      have hnext : next.Formed := ⟨hm.packetizer, hm.depacketizer, hm.preambler, hm.deambler⟩
      have hsent := (wireImage_eq hnext frame).2.1
      have hheld : (next.wireImage frame).1.heldOut = none := by
        rw [← hfree]
        unfold wireImage
        dsimp only
        split <;> rfl
      show Runs Formed (next.wireImage! frame >>= _) _
      rw [hnext.wireImage!, ok_bind]
      dsimp only
      rw [send_ok hheld]
      exact .pure ⟨hsent.packetizer, hsent.depacketizer, hsent.preambler, hsent.deambler⟩
  · rw [Bool.eq_false_iff.mpr hidle, Bool.not_false, if_pos rfl, if_pos rfl, Gap.tick!_eq]
    exact .pure ⟨hm.packetizer, hm.depacketizer, hm.preambler, hm.deambler⟩

/-- The hold is free where a frame is put into it. -/
theorem Formed.transmit! (hm : mac.Formed) : Runs Formed mac.transmit! mac.transmit := by
  rw [Mac.transmit!, mac.transmit_eq]
  refine Runs.afterHeld (·.heldOut) hm (fun _ => ?_) fun _ hm hfree => hm.transmitNext! hfree
  exact ⟨⟨hm.packetizer, hm.depacketizer, hm.preambler, hm.deambler⟩, rfl⟩

/-- A frame with a valid check sequence is as long as the sequence at least. -/
theorem Formed.unwrap! (hm : mac.Formed) (bs : Bytes) :
    mac.unwrap! bs = .ok (mac.unwrap bs) ∧ (mac.unwrap bs).1.Formed := by
  have hnext := hm.deambler.next (by decide) bs
  unfold Mac.unwrap! unwrap Preamble.strip
  cases mac.bareWire with
  | false => exact ⟨rfl, hm⟩
  | true =>
    rw [if_pos rfl, if_pos rfl, hm.deambler.depacketize!_eq Preamble.header_proper, ok_bind]
    refine ⟨?_, ⟨hm.packetizer, hm.depacketizer, hm.preambler, hnext⟩⟩
    dsimp only
    generalize (mac.deambler.depacketize bs).2.bind (fun (values, frame) =>
      if values.get "preamble" = Preamble.value then some frame else none) = stripped
    cases stripped with
    | none => rfl
    | some frame =>
      dsimp only
      rw [Crc32.valid!_eq, ok_bind]
      by_cases hvalid : Crc32.valid frame = true
      · have hlen : Crc32.length ≤ frame.length :=
          of_decide_eq_true (Bool.and_eq_true_iff.1 hvalid).1
        rw [if_pos hvalid, if_pos hvalid, sub_ok hlen]
        rfl
      · rw [if_neg hvalid, if_neg hvalid]
        rfl

/-- Any octets are read as a frame, or are too short for one. -/
theorem Formed.parse! (hm : mac.Formed) (bs : Bytes) :
    mac.parse! bs = .ok (mac.parse bs) ∧ (mac.parse bs).1.Formed := by
  have hnext := hm.depacketizer.next (by decide) bs
  rw [Mac.parse!, hm.depacketizer.depacketize!_eq header_proper]
  exact ⟨rfl, ⟨hm.packetizer, hnext, hm.preambler, hm.deambler⟩⟩

/-- Any octets are accepted or refused. -/
theorem Formed.accept! (hm : mac.Formed) (bs : Bytes) :
    mac.accept! bs = .ok (mac.accept bs) ∧ (mac.accept bs).1.Formed := by
  obtain ⟨hunwrap, hunwrapped⟩ := hm.unwrap! bs
  have hcounted : ∀ (m : Mac) (d : Defect), m.Formed →
      ({ m with stats := d.count m.stats } : Mac).Formed := fun m d hm =>
    ⟨hm.packetizer, hm.depacketizer, hm.preambler, hm.deambler⟩
  unfold Mac.accept! accept
  rw [hunwrap, ok_bind]
  cases hcut : mac.unwrap bs with
  | mk next frame =>
    rw [hcut] at hunwrapped
    cases frame with
    | error d => exact ⟨rfl, hcounted next d hunwrapped⟩
    | ok frame =>
      obtain ⟨hparse, hparsed⟩ := hunwrapped.parse! frame
      dsimp only at hparse hparsed ⊢
      rw [hparse, ok_bind]
      cases hread : next.parse frame with
      | mk last parsed =>
        rw [hread] at hparsed
        cases parsed with
        | error d => exact ⟨rfl, hcounted last d hparsed⟩
        | ok frame => exact ⟨rfl, hparsed⟩

/-- Receiving leaves the hold behind the wire to the frame that was received. -/
theorem heldIn_accept (mac : Mac) (bs : Bytes) : (mac.accept bs).1.heldIn = mac.heldIn := by
  have hunwrap : (mac.unwrap bs).1.heldIn = mac.heldIn := by
    unfold unwrap
    split <;> rfl
  unfold accept
  cases hcut : mac.unwrap bs with
  | mk next frame =>
    rw [hcut] at hunwrap
    cases frame with
    | error d => exact hunwrap
    | ok frame =>
      have hparse : (next.parse frame).1.heldIn = next.heldIn := rfl
      dsimp only
      cases hread : next.parse frame with
      | mk last parsed =>
        rw [hread] at hparse
        cases parsed with
        | error d => exact hparse.trans hunwrap
        | ok frame => exact hparse.trans hunwrap

/-- Any octets are taken off the wire. -/
theorem Formed.receiveNext! (hm : mac.Formed) (hfree : mac.heldIn = none) :
    Runs Formed mac.receiveNext! mac.receiveNext := by
  unfold Mac.receiveNext! receiveNext
  cases mac.wireIn.take with
  | none => exact .pure hm
  | some taken =>
    obtain ⟨bs, wireIn⟩ := taken
    let next : Mac := { mac with wireIn }
    have hnext : next.Formed := ⟨hm.packetizer, hm.depacketizer, hm.preambler, hm.deambler⟩
    obtain ⟨haccept, haccepted⟩ := hnext.accept! bs
    have hheld : (next.accept bs).1.heldIn = none := (heldIn_accept next bs).trans hfree
    show Runs Formed (next.accept! bs >>= _) _
    rw [haccept, ok_bind]
    dsimp only
    cases hread : next.accept bs with
    | mk last rest =>
      obtain ⟨frame, log⟩ := rest
      rw [hread] at haccepted hheld
      cases frame with
      | none => exact .pure haccepted
      | some frame =>
        dsimp only at hheld ⊢
        rw [send_ok hheld]
        exact .pure ⟨haccepted.packetizer, haccepted.depacketizer, haccepted.preambler,
          haccepted.deambler⟩

/-- The hold is free where a frame is put into it. -/
theorem Formed.receive! (hm : mac.Formed) : Runs Formed mac.receive! mac.receive := by
  rw [Mac.receive!, mac.receive_eq]
  refine Runs.afterHeld (·.heldIn) hm (fun _ => ?_) fun _ hm hfree => hm.receiveNext! hfree
  exact ⟨⟨hm.packetizer, hm.depacketizer, hm.preambler, hm.deambler⟩, rfl⟩

/-- Nothing on the wire, and no frame of a subscriber, stops a MAC. -/
theorem Formed.step! (hm : mac.Formed) : Runs Formed mac.step! mac.step := by
  have hexchange : Runs Formed
      (Checked.map (fun crossbar => { mac with crossbar }) mac.crossbar.step!)
      (mac.crossbar.step.map fun crossbar => { mac with crossbar }) := by
    rw [Crossbar.step!_eq]
    exact .pure ⟨hm.packetizer, hm.depacketizer, hm.preambler, hm.deambler⟩
  exact (hexchange.andThen fun _ hm => hm.transmit!).andThen fun _ hm => hm.receive!

end Mac
end Ethernet
end NetBoard
