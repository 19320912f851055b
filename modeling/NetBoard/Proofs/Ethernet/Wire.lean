/-
  NetBoard.Proofs.Ethernet.Wire
  ─────────────────────────────
  **FRAMES ON THE WIRE.**

  What a MAC sends, written down without stages: preamble, header, payload,
  zeros up to the shortest length and check sequence, the first and the last
  of them on a bare wire only.  A MAC on the same kind of wire takes the frame
  out again, with the zeros, for it cannot know where they begin.

  Main definitions:

      Frame.padded   — the frame with the zeros in its payload
      Frame.onWire   — its octets on either kind of wire

  Main statements:

      Mac.wireImage_eq   — these octets are sent
      Mac.accept_onWire  — from them the padded frame is received
-/
import NetBoard.Ethernet.Mac
import NetBoard.Proofs.Address
import NetBoard.Proofs.Crc32
import NetBoard.Proofs.Header.Stages

namespace NetBoard.Ethernet

theorem header_sound : header.Sound := by decide

theorem Preamble.header_sound : Preamble.header.Sound := by decide

/-! ## §1. Octets of a frame. -/

/-- The octets that announce a frame. -/
def Preamble.octets : Bytes := Preamble.header.encode (({} : Fields).set "preamble" Preamble.value)

/-- Behind its preamble a frame is found again. -/
theorem Preamble.strip_octets {d : Depacketizer} (hd : d.Reads Preamble.header) (bs : Bytes) :
    ∃ deambler : Depacketizer, deambler.Reads Preamble.header ∧
      Preamble.strip d (Preamble.octets ++ bs) = (deambler, some bs) := by
  have hlen : Preamble.octets.length = Preamble.header.length :=
    Header.length_encode Preamble.header_sound _
  have hpacket : (d.depacketize (Preamble.octets ++ bs)).2 =
      some (Preamble.header.decode Preamble.octets, bs) := hd.packet_append (by decide) hlen bs
  have hread : (Preamble.header.decode Preamble.octets).get "preamble" = Preamble.value := by
    decide +kernel
  refine ⟨(d.depacketize (Preamble.octets ++ bs)).1, hd.next (by decide) _, ?_⟩
  unfold strip
  dsimp only
  rw [hpacket, Option.bind_some]
  exact congrArg _ (if_pos hread)

namespace Frame

/-- Header and payload. -/
def octets (f : Frame) : Bytes := header.encode f.fields ++ f.payload

/-- The frame whose payload has been brought to the shortest length with zeros. -/
def padded (f : Frame) : Frame :=
  { f with payload := f.payload ++ List.replicate (minPayloadLength - f.payload.length) 0 }

/-- The frame as it is sent. -/
def onWire (bareWire : Bool) (f : Frame) : Bytes :=
  if bareWire then Preamble.octets ++ Crc32.append f.padded.octets else f.padded.octets

theorem fields_padded (f : Frame) : f.padded.fields = f.fields := rfl

/-- Padding a frame is padding its payload. -/
theorem pad_octets (f : Frame) : pad minFrameLength f.octets = f.padded.octets := by
  have hlen : (header.encode f.fields).length = 14 := Header.length_encode header_sound _
  have hzeros : minFrameLength - f.octets.length = minPayloadLength - f.payload.length := by
    rw [octets, List.length_append, hlen, minFrameLength, minPayloadLength]
    omega
  rw [pad, hzeros, octets, octets, fields_padded, padded, List.append_assoc]

theorem minFrameLength_le_padded (f : Frame) : minFrameLength ≤ f.padded.octets.length := by
  rw [← pad_octets, length_pad]
  exact Nat.le_max_right ..

/-- The header of a frame is read back as it was. -/
theorem ofFields_decode (f : Frame) (payload : Bytes) :
    ofFields (header.decode (header.encode f.fields)) payload = { f with payload } := by
  have htarget : (⟨"target_mac", 0, 0, 48⟩ : Header.Field) ∈ header.fields := by decide
  have hsender : (⟨"sender_mac", 6, 0, 48⟩ : Header.Field) ∈ header.fields := by decide
  have htype : (⟨"ethernet_type", 12, 0, 16⟩ : Header.Field) ∈ header.fields := by decide
  have hgettarget : f.fields.get "target_mac" = f.target.toNat := by
    simp [fields, Fields.get_set_of_ne]
  have hgetsender : f.fields.get "sender_mac" = f.sender.toNat := by
    simp [fields, Fields.get_set_of_ne]
  have hgettype : f.fields.get "ethernet_type" = f.type.toNat := by simp [fields]
  have hreadtarget :=
    Header.get_decode_encode_of_lt header_sound htarget hgettarget f.target.toNat_lt
  have hreadsender :=
    Header.get_decode_encode_of_lt header_sound hsender hgetsender f.sender.toNat_lt
  have hreadtype := Header.get_decode_encode_of_lt header_sound htype hgettype f.type.toNat_lt
  rw [ofFields, Fields.mac, Fields.mac, hreadtarget, hreadsender, hreadtype,
    MacAddress.ofNat_toNat, MacAddress.ofNat_toNat, UInt16.ofNat_toNat]

end Frame

/-! ## §2. Octets a MAC sends. -/

namespace Mac

/-- The stages of the MAC are those of its two headers. -/
structure Formed (mac : Mac) : Prop where
  packetizer : mac.packetizer.Writes header
  depacketizer : mac.depacketizer.Reads header
  preambler : mac.preambler.Writes Preamble.header
  deambler : mac.deambler.Reads Preamble.header

/-- So are those of every MAC there is. -/
theorem formed_make? {address : MacAddress} {width : Nat} {bareWire : Bool}
    {gapOctets depth : Nat} {mac : Mac}
    (h : make? address width bareWire gapOctets depth = .ok mac) :
    mac.Formed ∧ mac.bareWire = bareWire := by
  unfold make? at h
  cases hwidth : checkWidth width with
  | error fault =>
    rw [hwidth] at h
    cases h
  | ok w =>
    obtain ⟨hw, rfl⟩ := checkWidth_eq_ok_iff.1 hwidth
    rw [hwidth] at h
    cases h
    exact ⟨⟨⟨rfl, hw⟩, ⟨rfl, hw⟩, ⟨rfl, hw⟩, ⟨rfl, hw⟩⟩, rfl⟩

variable {mac : Mac}

/-- A frame is sent as it stands on the wire, and the next one can be. -/
theorem wireImage_eq (hm : mac.Formed) (f : Frame) :
    (mac.wireImage f).2 = f.onWire mac.bareWire ∧
      (mac.wireImage f).1.Formed ∧ (mac.wireImage f).1.bareWire = mac.bareWire := by
  have hnext := hm.packetizer.next header_sound f.fields f.payload
  have hbody : pad minFrameLength (mac.packetizer.packetize f.fields f.payload).2 =
      f.padded.octets := by
    rw [hm.packetizer.octets header_sound]
    exact f.pad_octets
  unfold wireImage Frame.onWire
  dsimp only
  rw [hbody]
  cases mac.bareWire with
  | false => exact ⟨rfl, ⟨hnext, hm.depacketizer, hm.preambler, hm.deambler⟩, rfl⟩
  | true =>
    have hpre := hm.preambler.next Preamble.header_sound
      (({} : Fields).set "preamble" Preamble.value) (Crc32.append f.padded.octets)
    refine ⟨?_, ⟨hnext, hm.depacketizer, hpre, hm.deambler⟩, rfl⟩
    exact hm.preambler.octets Preamble.header_sound _ _

/-- What is on its way to the wire stays there. -/
theorem wireOut_wireImage (mac : Mac) (f : Frame) : (mac.wireImage f).1.wireOut = mac.wireOut := by
  unfold wireImage
  dsimp only
  split <;> rfl

/-- The next frame of the crossbar goes to the wire once the gap is over, and
the MAC can send another one. -/
theorem transmitNext_frame (hm : mac.Formed) (hidle : mac.gap.isIdle = true) {f : Frame}
    {outbox : Pipe Frame} (hnext : mac.crossbar.outbox.take = some (f, outbox)) :
    (mac.transmitNext.state.heldOut, mac.transmitNext.state.wireOut) =
        sendOrHold (f.onWire mac.bareWire) mac.wireOut ∧
      mac.transmitNext.state.Formed ∧ mac.transmitNext.state.bareWire = mac.bareWire := by
  let taken : Mac := { mac with crossbar := { mac.crossbar with outbox } }
  have hformed : taken.Formed := ⟨hm.packetizer, hm.depacketizer, hm.preambler, hm.deambler⟩
  obtain ⟨himage, himaged, hwire⟩ := wireImage_eq hformed f
  have hout : (taken.wireImage f).1.wireOut = mac.wireOut := wireOut_wireImage taken f
  unfold transmitNext
  rw [hidle, hnext]
  refine ⟨?_, ⟨himaged.packetizer, himaged.depacketizer, himaged.preambler, himaged.deambler⟩,
    hwire⟩
  show sendOrHold (taken.wireImage f).2 (taken.wireImage f).1.wireOut = _
  rw [himage, hout]

/-! ## §3. Octets a MAC receives. -/

/-- What surrounds a frame on the wire is taken off. -/
theorem unwrap_onWire (hm : mac.Formed) (f : Frame) :
    ∃ deambler : Depacketizer, deambler.Reads Preamble.header ∧
      mac.unwrap (f.onWire mac.bareWire) = ({ mac with deambler }, .ok f.padded.octets) := by
  by_cases hwire : mac.bareWire = true
  · obtain ⟨deambler, hdeambler, hstrip⟩ :=
      Preamble.strip_octets hm.deambler (Crc32.append f.padded.octets)
    refine ⟨deambler, hdeambler, ?_⟩
    rw [Frame.onWire, if_pos hwire, unwrap, if_pos hwire, hstrip]
    dsimp only
    rw [Crc32.valid_append, if_pos rfl, Crc32.take_append]
  · refine ⟨mac.deambler, hm.deambler, ?_⟩
    rw [Frame.onWire, if_neg hwire, unwrap, if_neg hwire]

/-- The padded frame is read from its octets. -/
theorem parse_octets (hm : mac.Formed) (f : Frame) :
    ∃ depacketizer : Depacketizer, depacketizer.Reads header ∧
      mac.parse f.padded.octets = ({ mac with depacketizer }, .ok f.padded) := by
  have hlen : (header.encode f.padded.fields).length = header.length :=
    Header.length_encode header_sound _
  have hpacket : (mac.depacketizer.depacketize f.padded.octets).2 =
      some (header.decode (header.encode f.padded.fields), f.padded.payload) :=
    hm.depacketizer.packet_append (by decide) hlen f.padded.payload
  have hlong : isRunt minFrameLength f.padded.octets = false :=
    decide_eq_false (Nat.not_lt.2 f.minFrameLength_le_padded)
  refine ⟨(mac.depacketizer.depacketize f.padded.octets).1,
    hm.depacketizer.next (by decide) _, ?_⟩
  unfold parse
  dsimp only
  rw [hpacket, hlong]
  dsimp only
  rw [Frame.ofFields_decode]
  rfl

/-- From what stands on the wire the padded frame is received, and nothing is counted. -/
theorem accept_onWire (hm : mac.Formed) (f : Frame) :
    ∃ deambler depacketizer : Depacketizer,
      deambler.Reads Preamble.header ∧ depacketizer.Reads header ∧
      mac.accept (f.onWire mac.bareWire) =
        ({ mac with deambler, depacketizer }, some f.padded, []) := by
  obtain ⟨deambler, hdeambler, hunwrap⟩ := unwrap_onWire hm f
  have hformed : ({ mac with deambler } : Mac).Formed :=
    ⟨hm.packetizer, hm.depacketizer, hm.preambler, hdeambler⟩
  obtain ⟨depacketizer, hdepacketizer, hparse⟩ := parse_octets hformed f
  refine ⟨deambler, depacketizer, hdeambler, hdepacketizer, ?_⟩
  unfold accept
  rw [hunwrap]
  dsimp only
  rw [hparse]

end Mac
end NetBoard.Ethernet
