/-
  NetBoard.Proofs.Ip.Datagram
  ───────────────────────────
  **DATAGRAMS IN FRAMES.**

  The sender cuts a datagram into fragments, each with a header whose checksum
  is valid.  The receiver reads every such header back.  It takes a datagram
  that is in one fragment, whatever padding follows, and refuses each of the
  fragments of a longer one: all but the last say that more follow, and all
  but the first have an offset.

  Main statements:

      checksum_headerOctets      — the header of every fragment is valid
      ofFields_fragment          — what a fragment is to the receiver
      fragment_sending           — the frames of a datagram
      accept_whole, accept_part  — what becomes of such a frame
-/
import NetBoard.Ip.Layer
import NetBoard.Proofs.Address
import NetBoard.Proofs.Checksum
import NetBoard.Proofs.Header.Stages

namespace NetBoard.Ip

theorem header_sound : header.Sound := by decide

namespace Packet

section Header

variable (p : Packet) (sender : Ipv4) (identification : UInt16) (offset length : Nat) (more : Bool)

/-! ## §1. The header of a fragment. -/

/-- The octets of the header of a fragment. -/
def headerOctets : Bytes :=
  header.encode (p.fragmentFields sender identification offset length more)

theorem length_headerOctets :
    (p.headerOctets sender identification offset length more).length = headerLength :=
  Header.length_encode header_sound _

/-- The checksum is computed over the other words and stored among them. -/
theorem checksum_headerOctets :
    checksum (p.headerOctets sender identification offset length more) = 0 := by
  have hmem : (⟨"checksum", 10, 0, 16⟩ : Header.Field) ∈ header.fields := by decide
  unfold headerOctets fragmentFields
  dsimp only
  rw [Header.encode_set header_sound _ hmem, Header.Field.write_whole rfl rfl]
  apply checksum_sealed rfl
  rw [Header.length_encode header_sound]
  decide

/-- What the receiver reads in the header. -/
theorem decode_headerOctets (hlength : length ≤ maxPayloadLength) (hoffset : offset < 65536) :
    let values := header.decode (p.headerOctets sender identification offset length more)
    values.get "version" = 4 ∧ values.get "ihl" = 5 ∧
      values.get "total_length" = length + headerLength ∧
      values.get "flags" = (if more then moreFragments else 0) ∧
      values.get "fragment_offset" = offset / 8 ∧ values.get "protocol" = p.protocol.toNat ∧
      values.ip "sender_ip" = sender ∧ values.ip "target_ip" = p.ip := by
  let sent := p.fragmentFields sender identification offset length more
  have hread : ∀ field ∈ header.fields, ∀ v, sent.get field.name = v → v < 2 ^ field.width →
      (header.decode (header.encode sent)).get field.name = v :=
    fun field hf v hget hv => Header.get_decode_encode_of_lt header_sound hf hget hv
  have htotal : length + headerLength < 2 ^ 16 := by
    unfold maxPayloadLength headerLength at *
    omega
  have hflags : (if more then moreFragments else 0) < 2 ^ 3 := by
    cases more <;> decide
  refine ⟨?_, ?_, ?_, ?_, ?_, ?_, ?_, ?_⟩
  · exact hread ⟨"version", 0, 4, 4⟩ (by decide) 4
      (by simp [sent, fragmentFields, Fields.get_set_of_ne]) (by decide)
  · exact hread ⟨"ihl", 0, 0, 4⟩ (by decide) 5
      (by simp [sent, fragmentFields, Fields.get_set_of_ne]) (by decide)
  · exact hread ⟨"total_length", 2, 0, 16⟩ (by decide) _
      (by simp [sent, fragmentFields, Fields.get_set_of_ne]) htotal
  · exact hread ⟨"flags", 6, 13, 3⟩ (by decide) _
      (by simp [sent, fragmentFields, Fields.get_set_of_ne]) hflags
  · exact hread ⟨"fragment_offset", 6, 0, 13⟩ (by decide) _
      (by simp [sent, fragmentFields, Fields.get_set_of_ne]) (by show offset / 8 < 2 ^ 13; omega)
  · exact hread ⟨"protocol", 9, 0, 8⟩ (by decide) _
      (by simp [sent, fragmentFields, Fields.get_set_of_ne]) p.protocol.toNat_lt
  · have hsender := hread ⟨"sender_ip", 12, 0, 32⟩ (by decide) sender.toNat
      (by simp [sent, fragmentFields, Fields.get_set_of_ne]) sender.toNat_lt
    exact (congrArg Ipv4.ofNat hsender).trans sender.ofNat_toNat
  · have htarget := hread ⟨"target_ip", 16, 0, 32⟩ (by decide) p.ip.toNat
      (by simp [sent, fragmentFields, Fields.get_set_of_ne]) p.ip.toNat_lt
    exact (congrArg Ipv4.ofNat htarget).trans p.ip.ofNat_toNat

end Header

/-! ## §2. A fragment at the receiver. -/

/-- The octets of a fragment. -/
def fragmentOctets (p : Packet) (sender : Ipv4) (identification : UInt16) (offset : Nat)
    (more : Bool) (chunk : Bytes) : Bytes :=
  p.headerOctets sender identification offset chunk.length more ++ chunk

variable (p : Packet) (sender : Ipv4) (identification : UInt16) (more : Bool) {offset : Nat}
  {chunk : Bytes}

/-- Whatever follows it, a fragment is taken if it is the only one of a
datagram for the receiver. -/
theorem ofFields_fragment (hchunk : chunk.length ≤ maxPayloadLength) (hoffset : offset < 65536)
    (padding : Bytes) (localIp : Ipv4) (promiscuous : Bool) :
    ofFields localIp promiscuous
        (p.fragmentOctets sender identification offset more chunk ++ padding)
        (header.decode (p.headerOctets sender identification offset chunk.length more))
        (chunk ++ padding) =
      if !promiscuous && p.ip != localIp then .error .notForUs
      else if more = true ∨ 8 ≤ offset then .error .fragment
      else .ok ⟨sender, p.protocol, chunk⟩ := by
  obtain ⟨hversion, hihl, htotal, hflags, hoff, hprotocol, hsender, htarget⟩ :=
    p.decode_headerOctets sender identification offset chunk.length more hchunk hoffset
  have hhead : (p.fragmentOctets sender identification offset more chunk ++ padding).take
      headerLength = p.headerOctets sender identification offset chunk.length more := by
    rw [fragmentOctets, List.append_assoc, List.take_left' (p.length_headerOctets ..)]
  -- the offset is carried in units of eight octets
  have hfragment : ((if more then moreFragments else 0) &&& moreFragments ≠ 0 ∨ offset / 8 ≠ 0) ↔
      (more = true ∨ 8 ≤ offset) := by
    have hdiv : offset / 8 ≠ 0 ↔ 8 ≤ offset := by omega
    rw [hdiv]
    cases more <;> simp [moreFragments]
  -- the length in the header ends before the padding
  have hlength : ¬ (chunk.length + headerLength < headerLength ∨
      (chunk ++ padding).length < chunk.length + headerLength - headerLength) := by
    rw [List.length_append]
    omega
  unfold ofFields
  dsimp only
  rw [hversion, hihl, hhead, checksum_headerOctets, htarget, hflags, hoff, htotal, hprotocol, hsender,
    if_neg (by simp), if_neg (by simp), if_neg hlength, Nat.add_sub_cancel, List.take_left,
    UInt8.ofNat_toNat]
  simp only [hfragment]

/-- So it is read from a frame, and the stage is ready for the next one. -/
theorem read_fragment {d : Depacketizer} (hd : d.Reads header)
    (hchunk : chunk.length ≤ maxPayloadLength) (hoffset : offset < 65536)
    (padding : Bytes) (localIp : Ipv4) (promiscuous : Bool) :
    ∃ depacketizer : Depacketizer, depacketizer.Reads header ∧
      read d localIp promiscuous
          (p.fragmentOctets sender identification offset more chunk ++ padding) =
        (depacketizer,
          if !promiscuous && p.ip != localIp then .error .notForUs
          else if more = true ∨ 8 ≤ offset then .error .fragment
          else .ok ⟨sender, p.protocol, chunk⟩) := by
  have hpos : 0 < header.length := by decide
  have hpacket : (d.depacketize
      (p.fragmentOctets sender identification offset more chunk ++ padding)).2 =
      some (header.decode (p.headerOctets sender identification offset chunk.length more),
        chunk ++ padding) := by
    rw [fragmentOctets, List.append_assoc]
    exact hd.packet_append hpos (p.length_headerOctets ..) _
  refine ⟨(d.depacketize (p.fragmentOctets sender identification offset more chunk ++ padding)).1,
    hd.next hpos _, ?_⟩
  unfold read
  dsimp only
  rw [hpacket]
  dsimp only
  rw [ofFields_fragment p sender identification more hchunk hoffset]

end Packet

/-! ## §3. Frames of a datagram. -/

namespace Layer

/-- The stages of the layer are those of its header. -/
structure Formed (l : Layer) : Prop where
  packetizer : l.packetizer.Writes header
  depacketizer : l.depacketizer.Reads header

theorem formed_make {width : Nat} (hw : SupportedWidth width) (mac : MacAddress) (mtu : Nat)
    (promiscuous : Bool) (depth : Nat) : (make mac mtu promiscuous width depth).Formed :=
  ⟨⟨rfl, hw⟩, ⟨rfl, hw⟩⟩

/-- A frame that carries these octets to a station. -/
def frame (l : Layer) (mac : MacAddress) (payload : Bytes) : Ethernet.Frame :=
  { target := mac, sender := l.mac, type := Ethernet.typeIp, payload }

/-- The frames of a datagram, one for each of its chunks. -/
def frames (l : Layer) (localIp : Ipv4) (packet : Packet) (mac : MacAddress) :
    List Ethernet.Frame :=
  let cut := Packet.chunks l.fragmentSize packet.payload
  cut.zipIdx.map fun (chunk, i) =>
    l.frame mac (packet.fragmentOctets localIp l.identification (i * l.fragmentSize)
      (i + 1 < cut.length) chunk)

/-- The stage frames parts one after the other, the latest one first. -/
theorem foldl_packetize {p : Packetizer} (hp : p.Writes header) (l : Layer) (mac : MacAddress)
    (parts : List (Fields × Bytes)) (done : List Ethernet.Frame) :
    (parts.foldl (fun (p, done) (values, chunk) =>
      let (p, payload) := p.packetize values chunk
      (p, l.frame mac payload :: done)) (p, done)).2 =
      (parts.map fun (values, chunk) => l.frame mac (header.encode values ++ chunk)).reverse ++
        done := by
  induction parts generalizing p done with
  | nil => rfl
  | cons part parts ih =>
    obtain ⟨values, chunk⟩ := part
    have hnext := hp.next header_sound values chunk
    have hoctets := hp.octets header_sound values chunk
    rw [List.foldl_cons]
    dsimp only
    rw [ih hnext, hoctets, List.map_cons, List.reverse_cons, List.append_assoc]
    rfl

variable {l : Layer}

/-- Cutting a datagram sets out to send its frames. -/
theorem fragment_sending (hl : l.Formed) (localIp : Ipv4) (packet : Packet) (mac : MacAddress) :
    (l.fragment localIp packet mac).1.sending = .send (l.frames localIp packet mac) := by
  have hfold := foldl_packetize hl.packetizer l mac
    (packet.headers localIp l.identification l.fragmentSize) []
  unfold frame at hfold
  unfold fragment
  dsimp only at hfold ⊢
  rw [hfold, List.append_nil, List.reverse_reverse, Packet.headers, List.map_map]
  rfl

/-- A datagram that fits is one frame. -/
theorem frames_of_le {packet : Packet} (hpos : 0 < l.fragmentSize)
    (hfits : packet.payload.length ≤ l.fragmentSize) (localIp : Ipv4) (mac : MacAddress) :
    l.frames localIp packet mac =
      [l.frame mac (packet.fragmentOctets localIp l.identification 0 false packet.payload)] := by
  have hcut : Packet.chunks l.fragmentSize packet.payload = [packet.payload] := by
    unfold Packet.chunks
    by_cases hempty : packet.payload = []
    · rw [hempty]
      rfl
    · rw [if_neg (by simpa using hempty), Bytes.words_eq_cons hpos hempty,
        List.take_of_length_le hfits, List.drop_of_length_le hfits, Bytes.words_nil]
  unfold frames
  dsimp only
  rw [hcut]
  show [l.frame mac (packet.fragmentOctets localIp l.identification (0 * l.fragmentSize) _ _)] = _
  rw [Nat.zero_mul]
  rfl

/-- A longer one is several frames, and each of them is seen to be a part: more
follow, or it has an offset. -/
theorem frames_of_lt {packet : Packet} (hsize : 8 ≤ l.fragmentSize)
    (hlong : l.fragmentSize < packet.payload.length)
    (hmax : packet.payload.length ≤ maxPayloadLength) (localIp : Ipv4) (mac : MacAddress) :
    2 ≤ (l.frames localIp packet mac).length ∧
      ∀ frame ∈ l.frames localIp packet mac, ∃ offset more chunk,
        frame = l.frame mac (packet.fragmentOctets localIp l.identification offset more chunk) ∧
        (more = true ∨ 8 ≤ offset) ∧ chunk.length ≤ maxPayloadLength ∧ offset < 65536 := by
  have hpos : 0 < l.fragmentSize := by omega
  have hcut : Packet.chunks l.fragmentSize packet.payload =
      packet.payload.words l.fragmentSize := by
    have hne : packet.payload ≠ [] := by
      intro hempty
      rw [hempty, List.length_nil] at hlong
      omega
    exact if_neg (by simpa using hne)
  have hcount : 1 < (packet.payload.words l.fragmentSize).length := by
    rw [Bytes.lt_length_words_iff hpos, Nat.one_mul]
    exact hlong
  unfold frames
  dsimp only
  rw [hcut]
  constructor
  · rw [List.length_map, List.length_zipIdx]
    exact hcount
  · intro frame hframe
    obtain ⟨⟨chunk, i⟩, hi, rfl⟩ := List.mem_map.1 hframe
    have hword := List.mem_zipIdx_iff_getElem?.1 hi
    rw [Bytes.getElem?_words hpos] at hword
    by_cases hlt : i * l.fragmentSize < packet.payload.length
    · rw [if_pos hlt, Option.some_inj] at hword
      dsimp only at hword
      have hchunk : chunk.length ≤ maxPayloadLength := by
        rw [← hword, List.length_take, List.length_drop]
        omega
      have hoffset : i * l.fragmentSize < 65536 := by
        unfold maxPayloadLength at hmax
        omega
      refine ⟨i * l.fragmentSize, decide (i + 1 < _), chunk, rfl, ?_, hchunk, hoffset⟩
      -- all but the last are followed by others, and the last is not the first
      rcases Nat.eq_zero_or_pos i with rfl | hlater
      · exact Or.inl (decide_eq_true (by simpa using hcount))
      · exact Or.inr (Nat.le_trans hsize (Nat.le_mul_of_pos_left _ hlater))
    · rw [if_neg hlt] at hword
      cases hword

/-! ## §4. Frames at the receiver. -/

section Accept

variable (p : Packet) (sender : Ipv4) (identification : UInt16) {localIp : Ipv4} {chunk : Bytes}

/-- A datagram that a station hears is not taken for another's. -/
theorem heard_eq (haddress : l.promiscuous = true ∨ localIp = p.ip) :
    (!l.promiscuous && p.ip != localIp) = false := by
  rcases haddress with hany | hours
  · rw [hany]
    rfl
  · simp [hours]

/-- A datagram in one fragment is taken, and nothing is counted. -/
theorem accept_whole (hl : l.Formed) (haddress : l.promiscuous = true ∨ localIp = p.ip)
    (hchunk : chunk.length ≤ maxPayloadLength) (padding : Bytes) :
    ∃ depacketizer : Depacketizer, depacketizer.Reads header ∧
      l.accept localIp (p.fragmentOctets sender identification 0 false chunk ++ padding) =
        ({ l with depacketizer }, some ⟨sender, p.protocol, chunk⟩, []) := by
  obtain ⟨depacketizer, hd, hread⟩ := p.read_fragment sender identification false
    hl.depacketizer hchunk (show 0 < 65536 by decide) padding localIp l.promiscuous
  rw [heard_eq p haddress, if_neg Bool.false_ne_true, if_neg (by simp)] at hread
  refine ⟨depacketizer, hd, ?_⟩
  unfold accept
  rw [hread]

/-- A part of a datagram is refused, and counted and logged as such. -/
theorem accept_part (hl : l.Formed) (haddress : l.promiscuous = true ∨ localIp = p.ip)
    {offset : Nat} {more : Bool} (hpart : more = true ∨ 8 ≤ offset)
    (hchunk : chunk.length ≤ maxPayloadLength) (hoffset : offset < 65536) (padding : Bytes) :
    ∃ depacketizer : Depacketizer, depacketizer.Reads header ∧
      l.accept localIp (p.fragmentOctets sender identification offset more chunk ++ padding) =
        ({ l with depacketizer,
                  stats := { l.stats with fragmentsDropped := l.stats.fragmentsDropped + 1 } },
          none,
          [⟨Log.medium, source, "rx datagram dropped, fragment received, no reassembly"⟩]) := by
  obtain ⟨depacketizer, hd, hread⟩ := p.read_fragment sender identification more
    hl.depacketizer hchunk hoffset padding localIp l.promiscuous
  rw [heard_eq p haddress, if_neg Bool.false_ne_true, if_pos hpart] at hread
  refine ⟨depacketizer, hd, ?_⟩
  unfold accept
  rw [hread]
  rfl

end Accept

end Layer
end NetBoard.Ip
