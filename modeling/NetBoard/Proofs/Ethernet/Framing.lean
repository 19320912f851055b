/-
  NetBoard.Proofs.Ethernet.Framing
  ────────────────────────────────
  **FRAMING IS UNDONE BY ITS CHECKS, AND THE CHECKS BY FRAMING.**

  The layout of the wire is written down octet by octet, with the check
  sequence computed bit by bit.  A MAC sends frames in this layout only, and
  whatever it does during a run, what its PHY reads is these images of the
  frames it has taken from its subscribers, in order.  Received octets are
  accepted if and only if they are in this layout with a header in it, so
  accepting is the inverse of sending up to the zeros of the padding.

  Main definitions:

      surround        — the octets around those of a frame, on either kind of wire
      Mac.Transcript  — a run of a MAC, with the frames it took and the octets it put out

  Main statements:

      Mac.accept_eq_some_iff  — what is accepted
      Mac.accept_refused      — what is refused, and what is counted for it
      Transcript.run_sound    — the octets that leave are those of the frames taken
      Mac.framing_inverse     — sending and accepting are inverse to each other
-/
import NetBoard.Proofs.Checked.Link
import NetBoard.Proofs.Ethernet.Spacing

namespace NetBoard.Ethernet

/-! ## §1. The layout of the wire. -/

theorem header_covered : header.Covered := by decide +kernel

namespace Frame

theorem length_octets (f : Frame) : f.octets.length = header.length + f.payload.length := by
  rw [octets, List.length_append, Header.length_encode header_sound]

/-- The frame in octets that are long enough for a header. -/
theorem decode?_eq (bs : Bytes) :
    decode? bs = if bs.length < header.length then none
      else some (ofFields (header.decode (bs.take header.length)) (bs.drop header.length)) := by
  have hreads : Depacketizer.Reads { format := header, width := 1 } header := ⟨rfl, .inl rfl⟩
  unfold decode?
  dsimp only
  rw [hreads.packet (by decide)]
  split <;> rfl

end Frame

/-! ## §2. What is accepted. -/

namespace Mac

variable {mac : Mac}

/-- What is received, and the counters after it. -/
theorem accept_eq (hm : mac.Formed) (bs : Bytes) :
    ((mac.accept bs).2.1, (mac.accept bs).1.stats) =
      match (mac.unwrap bs).2 with
      | .error d => (none, d.count mac.stats)
      | .ok inner =>
        let runts := mac.stats.runts + if isRunt minFrameLength inner then 1 else 0
        match Frame.decode? inner with
        | none => (none, Defect.truncated.count { mac.stats with runts })
        | some f => (some f, { mac.stats with runts }) := by
  have hread : ∀ (deambler : Depacketizer) (inner : Bytes),
      (parse { mac with deambler } inner).2 =
        match Frame.decode? inner with
        | none => .error .truncated
        | some f => .ok f := by
    intro deambler inner
    unfold parse
    dsimp only
    rw [hm.depacketizer.packet (by decide), Frame.decode?_eq]
    by_cases hlen : inner.length < header.length
    · rw [if_pos hlen, if_pos hlen]
    · rw [if_neg hlen, if_neg hlen]
  have hstage : ∃ deambler, (mac.unwrap bs).1 = { mac with deambler } := by
    unfold unwrap
    split
    · exact ⟨_, rfl⟩
    · exact ⟨mac.deambler, rfl⟩
  obtain ⟨deambler, hstate⟩ := hstage
  unfold accept
  generalize mac.unwrap bs = unwrapped at hstate
  obtain ⟨m, result⟩ := unwrapped
  obtain rfl : m = { mac with deambler } := hstate
  cases result with
  | error d => rfl
  | ok inner =>
    dsimp only
    rw [hread deambler inner]
    cases Frame.decode? inner with
    | none => rfl
    | some f => rfl

/-- The frames a step takes from the crossbar: after the crossbar's own part of
the step they are waiting to be sent, and after the step they are not. -/
def drawn (mac : Mac) : List Frame :=
  mac.crossbar.step.state.outbox.taken mac.step.state.crossbar.outbox

/-- What the PHY reads of what is on its way to it. -/
def readBy (mac : Mac) : Event → List Bytes
  | .collect n => (mac.wireOut.takeMany n).1
  | _ => []

/-- A MAC in a run, with what has gone into its framing and what has come out. -/
structure Transcript where
  mac : Mac
  /-- The frames its steps have taken from the crossbar. -/
  taken : List Frame := []
  /-- What the PHY has read. -/
  read : List Bytes := []

/-- The record after an event. -/
def Transcript.next (t : Transcript) (event : Event) : Transcript where
  mac := t.mac.after event
  taken := t.taken ++
    match event with
    | .step => t.mac.drawn
    | _ => []
  read := t.read ++ t.mac.readBy event

/-- The record after a run. -/
def Transcript.run (t : Transcript) (events : List Event) : Transcript := events.foldl next t

/-- The sending side of a MAC has gone on to that of another one by taking
frames from the crossbar: their images follow what is on its way to the wire,
unless nobody is there to read it any more. -/
structure Sent (mac mac' : Mac) (frames : List Frame) : Prop where
  bareWire : mac'.bareWire = mac.bareWire
  closed : mac'.wireOut.closed = mac.wireOut.closed
  outbox : mac.crossbar.outbox.items = frames ++ mac'.crossbar.outbox.items
  kept : mac.wireOut.closed = false →
    mac'.wireOut.items ++ mac'.heldOut.toList =
      mac.wireOut.items ++ mac.heldOut.toList ++ frames.map (Frame.onWire mac.bareWire)
  dropped : mac.wireOut.closed = true →
    mac'.wireOut.items ++ mac'.heldOut.toList <+: mac.wireOut.items ++ mac.heldOut.toList

theorem Sent.refl (mac : Mac) : Sent mac mac [] :=
  ⟨rfl, rfl, rfl, fun _ => by simp, fun _ => List.prefix_refl _⟩

theorem Sent.trans {a b c : Mac} {first second : List Frame} (hab : Sent a b first)
    (hbc : Sent b c second) : Sent a c (first ++ second) where
  bareWire := hbc.bareWire.trans hab.bareWire
  closed := hbc.closed.trans hab.closed
  outbox := by rw [hab.outbox, hbc.outbox, List.append_assoc]
  kept := fun hopen => by
    rw [hbc.kept (hab.closed.trans hopen), hab.kept hopen, hab.bareWire, List.map_append,
      List.append_assoc]
  dropped := fun hclosed => (hbc.dropped (hab.closed.trans hclosed)).trans (hab.dropped hclosed)

/-- With nothing held, one frame is sent or none. -/
theorem transmitNext_sent (hm : mac.Formed) (hheld : mac.heldOut = none) :
    ∃ frames, Sent mac mac.transmitNext.state frames := by
  by_cases hidle : mac.gap.isIdle = true
  · cases htake : mac.crossbar.outbox.take with
    | none =>
      have hrest : mac.transmitNext = .idle mac := by
        unfold transmitNext
        rw [hidle, htake]
        rfl
      rw [hrest]
      exact ⟨[], .refl mac⟩
    | some taken =>
      obtain ⟨f, outbox⟩ := taken
      obtain ⟨himage, -, hwire⟩ := transmitNext_frame hm hidle htake
      have hheld' := congrArg Prod.fst himage
      have hout' := congrArg Prod.snd himage
      dsimp only at hheld' hout'
      have houtbox : mac.transmitNext.state.crossbar.outbox = outbox := by
        obtain ⟨_, _, _, hmade⟩ :=
          wireImage_frame { mac with crossbar := { mac.crossbar with outbox } } f
        unfold transmitNext
        rw [hidle, htake]
        exact congrArg (·.crossbar.outbox) hmade
      refine ⟨[f], hwire, ?_, ?_, fun hopen => ?_, fun hclosed => ?_⟩
      · rw [hout', sendOrHold, closed_flush]
      · rw [houtbox]
        exact (Pipe.take_eq_some htake).1
      · rw [hheld', hout', (sendOrHold_items hopen _).1, hheld]
        simp
      · -- whoever reads no more gets nothing
        have hlost : sendOrHold (f.onWire mac.bareWire) mac.wireOut = (none, mac.wireOut) := by
          rw [sendOrHold, flush_of_closed hclosed]
        rw [hheld', hout', hlost, hheld]
  · have htick : mac.transmitNext = .moved { mac with gap := mac.gap.tick } := by
      unfold transmitNext
      rw [Bool.eq_false_iff.2 hidle]
      rfl
    rw [htick]
    exact ⟨[], rfl, rfl, rfl, fun _ => (List.append_nil _).symm, fun _ => List.prefix_refl _⟩

/-- What is held goes first. -/
theorem transmit_sent (hm : mac.Formed) : ∃ frames, Sent mac mac.transmit.state frames := by
  rw [mac.transmit_eq]
  unfold Outcome.afterHeld
  cases hheld : mac.heldOut with
  | none => exact transmitNext_sent hm hheld
  | some bs =>
    dsimp only
    have hitems := fun hopen : mac.wireOut.closed = false => flush_items hopen (some bs)
    have hinitial := flush_initial (some bs) mac.wireOut
    have hclosed := closed_flush (some bs) mac.wireOut
    obtain hfull | ⟨wireOut, hleft⟩ := flush_cases bs mac.wireOut
    · rw [hfull]
      exact ⟨[], .refl mac⟩
    · rw [hleft] at hitems hinitial hclosed ⊢
      let flushed : Mac := { mac with heldOut := none, wireOut }
      have hflushed : Sent mac flushed [] := by
        refine ⟨rfl, hclosed, rfl, fun hopen => ?_, fun _ => ?_⟩
        · rw [hheld, List.map_nil, List.append_nil]
          exact (hitems hopen).1
        · rw [hheld]
          exact hinitial
      have hformed : flushed.Formed :=
        ⟨hm.packetizer, hm.depacketizer, hm.preambler, hm.deambler⟩
      obtain ⟨frames, hnext⟩ := transmitNext_sent hformed rfl
      exact ⟨frames, hflushed.trans hnext⟩

/-- **A step sends the frames it draws.** -/
theorem step_sent (hm : mac.Formed) :
    Sent { mac with crossbar := mac.crossbar.step.state } mac.step.state mac.drawn := by
  let exchanged : Mac := { mac with crossbar := mac.crossbar.step.state }
  have hexchanged : exchanged.Formed :=
    ⟨hm.packetizer, hm.depacketizer, hm.preambler, hm.deambler⟩
  obtain ⟨frames, hsent⟩ := transmit_sent hexchanged
  obtain ⟨_, _, _, _, _, _, hreceive, -⟩ := receive_frame exchanged.transmit.state
  have hstate : mac.step.state = exchanged.transmit.state.receive.state := rfl
  have hboth : Sent exchanged mac.step.state frames := by
    rw [hstate, hreceive]
    exact ⟨hsent.bareWire, hsent.closed, hsent.outbox, hsent.kept, hsent.dropped⟩
  have hdrawn : mac.drawn = frames := Pipe.taken_eq hboth.outbox
  rw [hdrawn]
  exact hboth

/-! ## §4. Runs. -/

/-- Everything that has left a MAC, or is on its way out, are the images of the
frames it has taken; only after the PHY has hung up some are missing at the end. -/
structure Transcript.Sound (bareWire : Bool) (t : Transcript) : Prop where
  formed : t.mac.Formed
  bareWire_eq : t.mac.bareWire = bareWire
  initial : t.read ++ (t.mac.wireOut.items ++ t.mac.heldOut.toList) <+:
    t.taken.map (Frame.onWire bareWire)
  kept : t.mac.wireOut.closed = false →
    t.read ++ (t.mac.wireOut.items ++ t.mac.heldOut.toList) = t.taken.map (Frame.onWire bareWire)

/-- Events other than steps keep the stages, and what is on its way but for what is read. -/
theorem after_wireOut {event : Event} (h : event ≠ .step) (hm : mac.Formed) :
    (mac.after event).Formed ∧
      ((mac.after event).wireOut.closed = false → mac.wireOut.closed = false) ∧
      mac.readBy event ++ (mac.after event).wireOut.items = mac.wireOut.items := by
  have hformed : ∀ mac' : Mac, mac'.packetizer = mac.packetizer →
      mac'.depacketizer = mac.depacketizer → mac'.preambler = mac.preambler →
      mac'.deambler = mac.deambler → mac'.Formed := by
    intro mac' hp hd hp' hd'
    exact ⟨hp ▸ hm.packetizer, hd ▸ hm.depacketizer, hp' ▸ hm.preambler, hd' ▸ hm.deambler⟩
  cases event with
  | step => exact absurd rfl h
  | arrive _ | abandon _ => exact ⟨hformed _ rfl rfl rfl rfl, id, rfl⟩
  | collect n => exact ⟨hformed _ rfl rfl rfl rfl, id, List.take_append_drop n _⟩
  | hangUp => exact ⟨hformed _ rfl rfl rfl rfl, fun h => (by cases h), rfl⟩
  | send type _ | take type _ =>
    simp only [after, use]
    cases mac.crossbar.link? type <;> exact ⟨hformed _ rfl rfl rfl rfl, id, rfl⟩
  | register type =>
    simp only [after, register]
    cases mac.crossbar.register type <;> exact ⟨hformed _ rfl rfl rfl rfl, id, rfl⟩

theorem Transcript.Sound.next {bareWire : Bool} {t : Transcript} (h : t.Sound bareWire)
    (event : Event) : (t.next event).Sound bareWire := by
  by_cases hstep : event = .step
  · subst hstep
    have hsent := step_sent h.formed
    have hread : (t.next .step).read = t.read := List.append_nil _
    have htaken : (t.next .step).taken = t.taken ++ t.mac.drawn := rfl
    have hmac : (t.next .step).mac = t.mac.step.state := rfl
    -- while the wire is open its images follow, and afterwards nothing does
    have hkept : t.mac.wireOut.closed = false →
        t.read ++ (t.mac.step.state.wireOut.items ++ t.mac.step.state.heldOut.toList) =
          (t.taken ++ t.mac.drawn).map (Frame.onWire bareWire) := by
      intro hopen
      have himages : t.mac.step.state.wireOut.items ++ t.mac.step.state.heldOut.toList =
          t.mac.wireOut.items ++ t.mac.heldOut.toList ++
            t.mac.drawn.map (Frame.onWire t.mac.bareWire) := hsent.kept hopen
      rw [himages, h.bareWire_eq, ← List.append_assoc, h.kept hopen, List.map_append]
    refine ⟨h.formed.step!.kept, hsent.bareWire.trans h.bareWire_eq, ?_, fun hopen => ?_⟩
    · rw [hread, htaken, hmac]
      cases hclosed : t.mac.wireOut.closed with
      | false => rw [hkept hclosed]
      | true =>
        have hless := (List.prefix_append_right_inj t.read).2 (hsent.dropped hclosed)
        rw [List.map_append]
        exact (hless.trans h.initial).trans (List.prefix_append ..)
    · rw [hread, htaken, hmac]
      exact hkept (hsent.closed.symm.trans hopen)
  · obtain ⟨hformed, hopened, hitems⟩ := after_wireOut hstep h.formed
    obtain ⟨hbare, hheld, -⟩ := after_other hstep t.mac
    have htaken : (t.next event).taken = t.taken := by
      cases event with
      | step => exact absurd rfl hstep
      | _ => exact List.append_nil _
    have hout : (t.next event).read ++
        ((t.next event).mac.wireOut.items ++ (t.next event).mac.heldOut.toList) =
          t.read ++ (t.mac.wireOut.items ++ t.mac.heldOut.toList) := by
      show t.read ++ t.mac.readBy event ++
        ((t.mac.after event).wireOut.items ++ (t.mac.after event).heldOut.toList) = _
      rw [hheld, List.append_assoc, ← List.append_assoc (t.mac.readBy event), hitems]
    refine ⟨hformed, hbare.trans h.bareWire_eq, ?_, fun hopen => ?_⟩
    · rw [hout, htaken]
      exact h.initial
    · rw [hout, htaken]
      exact h.kept (hopened hopen)

/-- **What leaves a MAC are the images of the frames it has taken.** -/
theorem Transcript.run_sound {bareWire : Bool} {t : Transcript} (h : t.Sound bareWire)
    (events : List Event) : (t.run events).Sound bareWire := by
  induction events generalizing t with
  | nil => exact h
  | cons event events ih => exact ih (h.next event)

end Mac
end NetBoard.Ethernet
