/-
  NetBoard.Proofs.Arp.Message
  ───────────────────────────
  **MESSAGES IN FRAMES.**

  What a resolver reads in a frame depends on the octets alone, not on what it
  has read before; what it writes depends on the message alone.  On every
  supported width the header is the first 28 octets, and a message that was
  written is read back whatever the filling behind it.

  Main definitions:

      header?        — the header in a frame
      message?       — the message in a frame
      Message.frame  — the frame of a message

  Main statements:

      header?_eq      — the header is the first octets of the payload
      message?_frame  — a message is read back
-/
import NetBoard.Arp.Message
import NetBoard.Proofs.Address
import NetBoard.Proofs.Header.Stages

namespace NetBoard.Arp

/-! ## §1. Reading and writing. -/

/-- The header in a frame, as it is read on a bus of this width. -/
def header? (width : Nat) (frame : Ethernet.Frame) : Option Fields :=
  (Depacketizer.depacketize { format := header, width } frame.payload).2.map (·.1)

/-- The message in a frame; none if it is not about IPv4 on Ethernet. -/
def message? (width : Nat) (frame : Ethernet.Frame) : Option Message :=
  (header? width frame).bind Message.ofFields?

/-- The frame of a message, filled to the minimum payload. -/
def Message.frame (width : Nat) (m : Message) : Ethernet.Frame :=
  let bs := (Packetizer.packetize { header, width } m.fields []).2
  { target := m.targetMac, sender := m.senderMac, type := Ethernet.typeArp
    payload := bs ++ List.replicate (Ethernet.minPayloadLength - bs.length) 0 }

/-! ## §2. What a message says. -/

/-- The message in a header, field by field. -/
theorem Message.ofFields?_eq_some {values : Fields} {m : Message}
    (h : Message.ofFields? values = some m) :
    values.get "hwtype" = 1 ∧ values.get "proto" = 0x0800 ∧ values.get "hwsize" = 6 ∧
      values.get "protosize" = 4 ∧ values.get "opcode" = m.operation.code ∧
      values.mac "sender_mac" = m.senderMac ∧ values.ip "sender_ip" = m.senderIp ∧
      values.mac "target_mac" = m.targetMac ∧ values.ip "target_ip" = m.targetIp := by
  unfold Message.ofFields? at h
  split at h
  · next hkind =>
    obtain ⟨hwtype, hproto, hhwsize, hprotosize⟩ := hkind
    obtain ⟨operation, hoperation, rfl⟩ := Option.map_eq_some_iff.1 h
    have hcode : values.get "opcode" = operation.code := by
      unfold Operation.ofCode? at hoperation
      split at hoperation
      · next hopcode =>
        cases hoperation
        exact hopcode
      · next hopcode =>
        cases hoperation
        exact hopcode
      · cases hoperation
    exact ⟨hwtype, hproto, hhwsize, hprotosize, hcode, rfl, rfl, rfl, rfl⟩
  · cases h

/-! ## §3. Supported widths. -/

theorem header_sound : header.Sound := by decide

/-- The header is the first octets of the payload, if there are enough. -/
theorem header?_eq {width : Nat} (hw : SupportedWidth width) (frame : Ethernet.Frame) :
    header? width frame =
      if frame.payload.length < header.length then none
      else some (header.decode (frame.payload.take header.length)) := by
  have hreads : Depacketizer.Reads { format := header, width } header := ⟨rfl, hw⟩
  unfold header?
  rw [hreads.packet (by decide)]
  split <;> rfl

/-- What is read in the header of a message. -/
theorem ofFields?_decode (m : Message) :
    Message.ofFields? (header.decode (header.encode m.fields)) = some m := by
  have hread : ∀ field ∈ header.fields, ∀ v, m.fields.get field.name = v → v < 2 ^ field.width →
      (header.decode (header.encode m.fields)).get field.name = v :=
    fun field hf v hget hv => Header.get_decode_encode_of_lt header_sound hf hget hv
  have hcode : m.operation.code < 2 ^ 16 := by
    cases m.operation <;> decide
  have hwtype := hread ⟨"hwtype", 0, 0, 16⟩ (by decide) 1
    (by simp [Message.fields, Fields.get_set_of_ne]) (by decide)
  have hproto := hread ⟨"proto", 2, 0, 16⟩ (by decide) 0x0800
    (by simp [Message.fields, Fields.get_set_of_ne]) (by decide)
  have hhwsize := hread ⟨"hwsize", 4, 0, 8⟩ (by decide) 6
    (by simp [Message.fields, Fields.get_set_of_ne]) (by decide)
  have hprotosize := hread ⟨"protosize", 5, 0, 8⟩ (by decide) 4
    (by simp [Message.fields, Fields.get_set_of_ne]) (by decide)
  have hopcode := hread ⟨"opcode", 6, 0, 16⟩ (by decide) _
    (by simp [Message.fields, Fields.get_set_of_ne]) hcode
  have hsenderMac := hread ⟨"sender_mac", 8, 0, 48⟩ (by decide) m.senderMac.toNat
    (by simp [Message.fields, Fields.get_set_of_ne]) m.senderMac.toNat_lt
  have hsenderIp := hread ⟨"sender_ip", 14, 0, 32⟩ (by decide) m.senderIp.toNat
    (by simp [Message.fields, Fields.get_set_of_ne]) m.senderIp.toNat_lt
  have htargetMac := hread ⟨"target_mac", 18, 0, 48⟩ (by decide) m.targetMac.toNat
    (by simp [Message.fields, Fields.get_set_of_ne]) m.targetMac.toNat_lt
  have htargetIp := hread ⟨"target_ip", 24, 0, 32⟩ (by decide) m.targetIp.toNat
    (by simp [Message.fields]) m.targetIp.toNat_lt
  dsimp only at hwtype hproto hhwsize hprotosize hopcode hsenderMac hsenderIp htargetMac htargetIp
  unfold Message.ofFields?
  rw [if_pos ⟨hwtype, hproto, hhwsize, hprotosize⟩, hopcode, Operation.ofCode?_code]
  simp only [Option.map_some, Fields.mac, Fields.ip, hsenderMac, hsenderIp, htargetMac, htargetIp,
    MacAddress.ofNat_toNat, Ipv4.ofNat_toNat]

/-- **A message is read back from its frame**, behind which any octets may follow. -/
theorem message?_frame {width : Nat} (hw : SupportedWidth width) (m : Message) :
    message? width (m.frame width) = some m := by
  have hlength : (header.encode m.fields).length = header.length :=
    Header.length_encode header_sound _
  have hwrites : Packetizer.Writes { header, width } header := ⟨rfl, hw⟩
  obtain ⟨filling, hpayload⟩ :
      ∃ filling, (m.frame width).payload = header.encode m.fields ++ filling := by
    unfold Message.frame
    dsimp only
    rw [hwrites.octets header_sound, List.append_nil]
    exact ⟨_, rfl⟩
  have hlong : ¬ (m.frame width).payload.length < header.length := by
    rw [hpayload, List.length_append, hlength]
    omega
  have hheader : header? width (m.frame width) = some (header.decode (header.encode m.fields)) := by
    rw [header?_eq hw, if_neg hlong, hpayload, List.take_left' hlength]
  rw [message?, hheader, Option.bind_some, ofFields?_decode]

end NetBoard.Arp
