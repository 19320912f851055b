/-
  NetBoard.Proofs.Header.Streams
  ──────────────────────────────
  **ONE PACKET AFTER ANOTHER.**

  A stage handles many packets, and between them it keeps a carry, or the
  phase it stands in and the verdict on the packet before.  Nothing of that is
  seen in the next packet: whatever a packetizer was used for, header and
  payload leave as one packet; and of packets that follow each other without
  a pause, the truncated ones included, each is cut behind its own header.

  Main definitions:

      Packetizer.Use, Depacketizer.Use  — what a stage can be used for

  Main statements:

      Packetizer.after_keeps               — only the carry is left of earlier uses
      Packetizer.header_leads_payload      — a packet, after any uses
      Depacketizer.reset_after             — no use outlasts a reset
      Depacketizer.Awaits.pushAll_packets  — packets back to back leave it waiting
      Depacketizer.payload_follows_header  — a packet, after any uses and any packets
-/
import NetBoard.Proofs.Header.Stages

namespace NetBoard

variable {h : Header} {width : Nat}

/-! ## §1. Sending. -/

namespace Packetizer

/-- What a packetizer can be used for. -/
inductive Use where
  /-- A packet is begun. -/
  | start (values : Fields)
  /-- One payload beat is fed, wherever the packet stands. -/
  | feed (beat : Beat)
  /-- A packet is sent as a whole, whatever its beats. -/
  | packet (values : Fields) (payload : List Beat)

/-- The packetizer after one use. -/
def use (p : Packetizer) : Use → Packetizer
  | .start values => (p.begin values).1
  | .feed beat => (p.push beat).1
  | .packet values payload => (p.packetizeBeats values payload).1

/-- The packetizer after some uses. -/
def after (p : Packetizer) (uses : List Use) : Packetizer := uses.foldl use p

/-- Only what waits for the next beat changes with a use. -/
theorem use_keeps (p : Packetizer) (u : Use) : ∃ carry, p.use u = { p with carry } := by
  cases u with
  | start values => exact ⟨_, rfl⟩
  | feed beat => exact ⟨_, push_keeps p beat⟩
  | packet values payload => exact p.packetizeBeats_keeps values payload

theorem after_keeps (uses : List Use) :
    ∀ p : Packetizer, ∃ carry, p.after uses = { p with carry } := by
  induction uses with
  | nil =>
    intro p
    exact ⟨p.carry, rfl⟩
  | cons u uses ih =>
    intro p
    obtain ⟨carry, huse⟩ := p.use_keeps u
    obtain ⟨carry', hafter⟩ := ih (p.use u)
    refine ⟨carry', ?_⟩
    rw [huse] at hafter
    show (p.use u).after uses = _
    rw [huse, hafter]

/-- **Header and payload leave as one packet, beat for beat**: whatever the
width, the length of the header and that of the payload, and whatever the
packetizer was used for before, a packet left unfinished included. -/
theorem header_leads_payload (hfields : h.Encloses) (hw : SupportedWidth width)
    (before : List Use) (values : Fields) (payload : Bytes) :
    ((after { header := h, width } before).packetizeBeats values
        (Beat.ofBytes width payload)).2 =
      Beat.ofBytes width (h.encode values ++ payload) := by
  obtain ⟨carry, hafter⟩ := after_keeps before { header := h, width }
  have hpacket := packetizeBeats_ofBytes ({ header := h, width, carry } : Packetizer) hw.fits
    (hfields.length_encode values) payload
  rw [hafter]
  exact congrArg Prod.snd hpacket

/-- A header of three octets on a bus of four, behind a packet that was not
finished: the last two payload octets need a word of their own. -/
theorem header_leads_payload_unfinished :
    let h : Header := ⟨[⟨"kind", 0, 4, 4⟩, ⟨"size", 0, 0, 12⟩, ⟨"mark", 2, 0, 8⟩], 3⟩
    let values := ((({} : Fields).set "kind" 0x1a).set "size" 0x234).set "mark" 0x56
    let before : List Use := [.start {}, .feed { data := 0x01020304 }]
    h.Encloses ∧ SupportedWidth 4 ∧
      ((after { header := h, width := 4 } before).packetizeBeats values
          (Beat.ofBytes 4 [1, 2, 3, 4, 5, 6, 7])).2 =
        [{ data := 0x015634a2 }, { data := 0x05040302 },
          { data := 0x0706, last := true, lastBe := 2 }] := by
  intro h values before
  have hfields : h.Encloses := by decide
  have hw : SupportedWidth 4 := .inr (.inr (.inl rfl))
  refine ⟨hfields, hw, ?_⟩
  rw [header_leads_payload hfields hw]
  decide +kernel

end Packetizer

/-! ## §2. Receiving. -/

namespace Depacketizer

/-- What a depacketizer can be used for. -/
inductive Use where
  /-- One beat is fed, wherever the packet stands. -/
  | feed (beat : Beat)
  /-- What is known of earlier packets is forgotten. -/
  | forget
  /-- A packet is received as a whole, whatever its beats. -/
  | packet (beats : List Beat)

/-- The depacketizer after one use. -/
def use (d : Depacketizer) : Use → Depacketizer
  | .feed beat => (d.push beat).1
  | .forget => d.reset
  | .packet beats => (d.depacketizeBeats beats).1

/-- The depacketizer after some uses. -/
def after (d : Depacketizer) (uses : List Use) : Depacketizer := uses.foldl use d

theorem reset_use (d : Depacketizer) (u : Use) : (d.use u).reset = d.reset := by
  cases u with
  | feed beat => exact d.reset_push beat
  | forget => rfl
  | packet beats => exact d.reset_depacketizeBeats beats

theorem reset_after (uses : List Use) : ∀ d : Depacketizer, (d.after uses).reset = d.reset := by
  induction uses with
  | nil =>
    intro d
    rfl
  | cons u uses ih =>
    intro d
    exact (ih (d.use u)).trans (d.reset_use u)

theorem pushAll_append (d : Depacketizer) (xs ys : List Beat) :
    d.pushAll (xs ++ ys) =
      (((d.pushAll xs).1.pushAll ys).1,
        (d.pushAll xs).2 ++ ((d.pushAll xs).1.pushAll ys).2) := by
  induction xs generalizing d with
  | nil => rfl
  | cons beat xs ih =>
    rw [List.cons_append, pushAll_cons, ih, pushAll_cons]
    dsimp only
    rw [List.append_assoc]

/-- The stage takes this header off, and waits for the first beat of a packet. -/
structure Awaits (d : Depacketizer) (h : Header) (width : Nat) : Prop where
  format : d.format = h
  width : d.width = width
  phase : d.phase = .header []

/-- A packet comes out behind its header, and then the next one is awaited. -/
theorem Awaits.pushAll {d : Depacketizer} (hd : d.Awaits h width) (hw : SupportedWidth width)
    (hpos : 0 < h.length) {bs : Bytes} (hne : bs ≠ []) :
    (d.pushAll (Beat.ofBytes width bs)).2 = Beat.ofBytes width (bs.drop h.length) ∧
      Received d bs (d.pushAll (Beat.ofBytes width bs)).1 ∧
      (d.pushAll (Beat.ofBytes width bs)).1.Awaits h width := by
  obtain ⟨rfl, rfl, hphase⟩ := hd
  obtain ⟨after, hrun, hafter⟩ := pushAll_packet d hw.fits hpos hphase hne
  rw [hrun]
  exact ⟨rfl, hafter, hafter.format, hafter.width, hafter.phase⟩

/-- So it is behind any number of packets, truncated ones among them. -/
theorem Awaits.pushAll_packets (hw : SupportedWidth width) (hpos : 0 < h.length)
    {packets : List Bytes} (hne : ∀ bs ∈ packets, bs ≠ []) :
    ∀ {d : Depacketizer}, d.Awaits h width →
      (d.pushAll (packets.flatMap (Beat.ofBytes width))).1.Awaits h width := by
  induction packets with
  | nil =>
    intro d hd
    exact hd
  | cons bs packets ih =>
    intro d hd
    rw [List.flatMap_cons, pushAll_append]
    refine ih (fun b hb => hne b (List.mem_cons_of_mem _ hb)) ?_
    exact (hd.pushAll hw hpos (hne bs (List.mem_cons_self ..))).2.2

/-- **A packet is cut behind its header, beat for beat.**

Received as a whole, whatever the depacketizer was used for before, it is
refused exactly if it is shorter than the header, and otherwise gives the
header's values and the beats of the rest.  Fed to a depacketizer that waits
for a packet, behind any packets that were fed before it, it gives the payload
beats that it gives alone; then the depacketizer says whether it was
truncated, and if not, what its header was. -/
theorem payload_follows_header (hpos : 0 < h.length) (hw : SupportedWidth width)
    (before : List Use) :
    let d := after { format := h, width } before
    (∀ bs : Bytes, (d.depacketizeBeats (Beat.ofBytes width bs)).2 =
      if bs.length < h.length then none
      else some (h.decode (bs.take h.length), Beat.ofBytes width (bs.drop h.length))) ∧
    (d.phase = .header [] → ∀ packets : List Bytes, (∀ b ∈ packets, b ≠ []) →
      ∀ bs : Bytes, bs ≠ [] →
        let fed := (d.pushAll (packets.flatMap (Beat.ofBytes width))).1
        let last := fed.pushAll (Beat.ofBytes width bs)
        last.2 = Beat.ofBytes width (bs.drop h.length) ∧
        last.2 = (pushAll { format := h, width } (Beat.ofBytes width bs)).2 ∧
        (last.1.truncated = true ↔ bs.length < h.length) ∧
        (h.length ≤ bs.length → last.1.fields = some (h.decode (bs.take h.length)))) := by
  intro d
  have hreset : d.reset = { format := h, width } := reset_after before _
  have hformat : d.format = h := congrArg (·.format) hreset
  have hwidth : d.width = width := congrArg (·.width) hreset
  refine ⟨?_, ?_⟩
  · intro bs
    obtain ⟨hbeats, -⟩ := depacketizeBeats_ofBytes d (hwidth ▸ hw.fits) (hformat ▸ hpos) bs
    rwa [hwidth, hformat] at hbeats
  · intro hphase packets hpackets bs hne fed last
    have hd : d.Awaits h width := ⟨hformat, hwidth, hphase⟩
    have hfed : fed.Awaits h width := Awaits.pushAll_packets hw hpos hpackets hd
    obtain ⟨hbeats, hreceived, -⟩ := hfed.pushAll hw hpos hne
    have halone : Awaits { format := h, width } h width := ⟨rfl, rfl, rfl⟩
    refine ⟨hbeats, hbeats.trans (halone.pushAll hw hpos hne).1.symm, ?_, ?_⟩
    · have htruncated : last.1.truncated = decide (bs.length < fed.format.length) :=
        hreceived.truncated
      rw [htruncated, hfed.format, decide_eq_true_iff]
    · have hfields := hreceived.fields
      rw [hfed.format] at hfields
      exact hfields

/-- A header of five octets on a bus of four.  Behind a packet that ends in the
word which header and payload share comes one that ends with its header, and
then one whose last word needs two. -/
theorem payload_follows_header_truncated :
    let h : Header := ⟨[⟨"kind", 0, 0, 8⟩, ⟨"size", 1, 4, 12⟩, ⟨"mark", 4, 0, 8⟩], 5⟩
    let d : Depacketizer := { format := h, width := 4 }
    let short : Bytes := [1, 2, 3, 4]
    let bare : Bytes := [1, 2, 3, 4, 5]
    let long : Bytes := [6, 7, 8, 9, 10, 11, 12, 13, 14, 15, 16]
    let last := (d.pushAll ([short, bare].flatMap (Beat.ofBytes 4))).1.pushAll (Beat.ofBytes 4 long)
    0 < h.length ∧ SupportedWidth 4 ∧ d.phase = .header [] ∧ (∀ b ∈ [short, bare], b ≠ []) ∧
      long ≠ [] ∧
      last.2 = [{ data := 0x0e0d0c0b }, { data := 0x100f, last := true, lastBe := 2 }] ∧
      last.1.fields.map (·.get "size") = some 0x070 ∧
      (d.depacketizeBeats (Beat.ofBytes 4 short)).2 = none := by
  intro h d short bare long last
  have hpos : 0 < h.length := by decide
  have hw : SupportedWidth 4 := .inr (.inr (.inl rfl))
  have hpackets : ∀ b ∈ [short, bare], b ≠ [] := by decide
  have hne : long ≠ [] := by decide
  obtain ⟨hwhole, hfed⟩ := payload_follows_header hpos hw []
  obtain ⟨hbeats, -, -, hfields⟩ := hfed rfl [short, bare] hpackets long hne
  refine ⟨hpos, hw, rfl, hpackets, hne, ?_, ?_, ?_⟩
  · exact hbeats.trans (by decide +kernel)
  · have hvalues : last.1.fields = some (h.decode (long.take h.length)) := hfields (by decide)
    rw [hvalues]
    decide +kernel
  · exact hwhole short

end Depacketizer
end NetBoard
