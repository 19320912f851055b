/-
  NetBoard.Proofs.Header.Stages
  ─────────────────────────────
  **THE STAGES OF A LAYER.**

  A layer puts its header before what it sends and takes it off what it
  receives, each with a bus stage that keeps some state between packets.  That
  state is never seen: on any supported width, and whatever was handled
  before, the octets of the header come first and the payload follows as it is.

  Main statements:

      Packetizer.Writes.octets     — the header, then the payload
      Depacketizer.Reads.packet    — the octets cut behind the header
      Packetizer.Writes.next, Depacketizer.Reads.next
                                   — so it is for the next packet too
      Packetizer.packetize_carry, Packetizer.packetize_keeps, Depacketizer.reset_depacketize
                                   — on any width at all, only scratch is left behind
-/
import NetBoard.Proofs.Header.Depacketizer
import NetBoard.Proofs.Header.Fields
import NetBoard.Proofs.Header.Packetizer

namespace NetBoard

variable {h : Header}

/-! ## §1. Sending. -/

namespace Packetizer

variable {p : Packetizer}

/-- The stage puts this header before packets, on a bus of a supported width. -/
structure Writes (p : Packetizer) (h : Header) : Prop where
  header : p.header = h
  width : SupportedWidth p.width

/-- All that a packetizer makes of a packet, and what is left of it. -/
theorem Writes.packetize (hp : p.Writes h) (hs : h.Sound) (values : Fields) (payload : Bytes) :
    p.packetize values payload = ({ p with carry := none }, h.encode values ++ payload) := by
  have hlen : (p.header.encode values).length = p.header.length := by
    rw [hp.header]
    exact Header.length_encode hs values
  rw [packetize_eq p hp.width.fits hlen, hp.header]

/-- The header comes first, and the payload follows as it is. -/
theorem Writes.octets (hp : p.Writes h) (hs : h.Sound) (values : Fields) (payload : Bytes) :
    (p.packetize values payload).2 = h.encode values ++ payload := by
  rw [hp.packetize hs]

/-- It is left as fit for the header as it was. -/
theorem Writes.next (hp : p.Writes h) (hs : h.Sound) (values : Fields) (payload : Bytes) :
    (p.packetize values payload).1.Writes h := by
  rw [hp.packetize hs]
  exact ⟨hp.header, hp.width⟩

end Packetizer

/-! ## §2. Receiving. -/

namespace Depacketizer

variable {d : Depacketizer}

/-- The stage takes this header off packets, on a bus of a supported width. -/
structure Reads (d : Depacketizer) (h : Header) : Prop where
  format : d.format = h
  width : SupportedWidth d.width

/-- The octets are cut behind the header, unless they end in it. -/
theorem Reads.packet (hd : d.Reads h) (hpos : 0 < h.length) (bs : Bytes) :
    (d.depacketize bs).2 =
      if bs.length < h.length then none
      else some (h.decode (bs.take h.length), bs.drop h.length) := by
  obtain ⟨rfl, hw⟩ := hd
  exact depacketize_eq d hw.fits hpos bs

/-- Behind octets that are as long as the header comes the payload. -/
theorem Reads.packet_append (hd : d.Reads h) (hpos : 0 < h.length) {octets : Bytes}
    (hlen : octets.length = h.length) (payload : Bytes) :
    (d.depacketize (octets ++ payload)).2 = some (h.decode octets, payload) := by
  obtain ⟨rfl, hw⟩ := hd
  exact depacketize_append d hw.fits hpos hlen payload

/-- It is left as fit for the header as it was. -/
theorem Reads.next (hd : d.Reads h) (hpos : 0 < h.length) (bs : Bytes) :
    (d.depacketize bs).1.Reads h := by
  obtain ⟨rfl, hw⟩ := hd
  obtain ⟨hformat, hwidth⟩ := depacketize_format d hw.fits hpos bs
  exact ⟨hformat, hwidth ▸ hw⟩

end Depacketizer

/-! ## §3. Any width. -/

namespace Packetizer

/-- A header without payload is sent as it is, whatever was sent before. -/
theorem packetize_nil (p : Packetizer) (values : Fields) :
    p.packetize values [] =
      ({ p with carry := none },
        Beat.toBytes p.width (Beat.ofBytes p.width (p.header.encode values))) := by
  rw [packetize, Beat.ofBytes_nil]
  rfl

/-- Whatever was sent before, the same is sent now. -/
theorem packetize_carry (p : Packetizer) (carry : Option UInt64) (values : Fields)
    (payload : Bytes) : { p with carry }.packetize values payload = p.packetize values payload := rfl

/-- One word changes the carry at most. -/
theorem push_keeps (p : Packetizer) (beat : Beat) :
    (p.push beat).1 = { p with carry := (p.push beat).1.carry } := by
  unfold push
  split
  · rfl
  · dsimp only
    split <;> rfl

/-- So do any words. -/
theorem pushAll_keeps (beats : List Beat) :
    ∀ p : Packetizer, (p.pushAll beats).1 = { p with carry := (p.pushAll beats).1.carry } := by
  induction beats with
  | nil =>
    intro p
    rfl
  | cons beat rest ih =>
    intro p
    rw [pushAll_cons]
    dsimp only
    rw [ih, push_keeps p beat]

/-- Only what waits for the next beat changes with a packet. -/
theorem packetizeBeats_keeps (p : Packetizer) (values : Fields) (payload : List Beat) :
    ∃ carry, (p.packetizeBeats values payload).1 = { p with carry } := by
  unfold packetizeBeats
  cases payload.isEmpty with
  | true => exact ⟨none, rfl⟩
  | false => exact ⟨_, pushAll_keeps _ (p.begin values).1⟩

/-- So does a whole packet of octets. -/
theorem packetize_keeps (p : Packetizer) (values : Fields) (payload : Bytes) :
    ∃ carry, (p.packetize values payload).1 = { p with carry } :=
  p.packetizeBeats_keeps values (Beat.ofBytes p.width payload)

end Packetizer

namespace Depacketizer

/-- What is left of earlier packets is forgotten before the next one. -/
theorem depacketize_reset (d : Depacketizer) (bs : Bytes) :
    d.reset.depacketize bs = d.depacketize bs := rfl

/-- What a word of the header leaves behind is gone after a reset. -/
theorem reset_pushHeader (d : Depacketizer) (seen : Bytes) (beat : Beat) :
    (d.pushHeader seen beat).reset = d.reset := by
  unfold pushHeader
  dsimp only
  split
  · rfl
  · split <;> rfl

/-- So is what the word leaves in which the header ends. -/
theorem reset_pushBoundary (d : Depacketizer) (seen : Bytes) (beat : Beat) :
    (d.pushBoundary seen beat).1.reset = d.reset := by
  unfold pushBoundary
  dsimp only
  split
  · rfl
  · split <;> rfl

/-- One word, in whatever phase, leaves nothing that outlasts a reset. -/
theorem reset_push (d : Depacketizer) (beat : Beat) : (d.push beat).1.reset = d.reset := by
  unfold push
  split
  · next seen _ =>
    -- the first beat forgets what `reset` forgets
    have hfresh : (if seen.isEmpty then { d with fields := none, truncated := false } else d).reset =
        d.reset := by
      split <;> rfl
    have hfed : ∀ e : Depacketizer, (if seen.length < e.full then (e.pushHeader seen beat, [])
        else e.pushBoundary seen beat).1.reset = e.reset := by
      intro e
      split
      · exact e.reset_pushHeader seen beat
      · exact e.reset_pushBoundary seen beat
    exact (hfed _).trans hfresh
  · split <;> rfl
  · unfold pushShifted
    dsimp only
    split <;> rfl

/-- Nor do any words. -/
theorem reset_pushAll (beats : List Beat) :
    ∀ d : Depacketizer, (d.pushAll beats).1.reset = d.reset := by
  induction beats with
  | nil =>
    intro d
    rfl
  | cons beat rest ih =>
    intro d
    rw [pushAll_cons]
    exact (ih _).trans (d.reset_push beat)

/-- A packet changes nothing that outlasts it. -/
theorem reset_depacketizeBeats (d : Depacketizer) (beats : List Beat) :
    (d.depacketizeBeats beats).1.reset = d.reset := by
  have hpush := reset_pushAll (Beat.packet beats) d.reset
  unfold depacketizeBeats
  dsimp only
  split
  · exact hpush
  · exact hpush

/-- Nor does a whole packet of octets. -/
theorem reset_depacketize (d : Depacketizer) (bs : Bytes) :
    (d.depacketize bs).1.reset = d.reset :=
  d.reset_depacketizeBeats (Beat.ofBytes d.width bs)

end Depacketizer
end NetBoard
