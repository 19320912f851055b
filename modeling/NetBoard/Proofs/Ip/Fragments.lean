/-
  NetBoard.Proofs.Ip.Fragments
  ────────────────────────────
  **A DATAGRAM IN ITS FRAGMENTS.**

  However long a datagram is and whatever the MTU leaves, its fragments can be
  put together again from what their headers say: every header is valid and
  names the datagram, the offset counts the octets in front of the fragment,
  all fragments but the last are filled up to a multiple of eight octets and
  say that more follow, and their payloads are the datagram.  The offset is
  carried in thirteen bits and the length in sixteen; a datagram for which
  that would not be enough is refused before it is cut.

  Main definitions:

      Packet.IsFragment   — a frame as a fragment of a datagram
      Packet.Fragments    — frames as all of its fragments

  Main statements:

      Layer.frames_fragments  — the frames of a datagram are its fragments
      Layer.frames_fit        — each of them fits the MTU
      Station.begin_oversize  — a datagram that is too long is only counted
      Station.datagram_conserved
                              — what becomes of any datagram
-/
import NetBoard.Proofs.Ip.Datagram

namespace NetBoard.Ip

open Ethernet (Frame)

/-! ## §1. What the fragments say. -/

/-- The values in the header of a frame. -/
def heading (f : Frame) : Fields := header.decode (f.payload.take headerLength)

/-- The octets behind the header of a frame. -/
def carried (f : Frame) : Bytes := f.payload.drop headerLength

namespace Packet

/-- The frame is the fragment of a datagram that follows `before` octets of it;
`more` says whether other fragments follow. -/
structure IsFragment (p : Packet) (sender : Ipv4) (identification : UInt16) (before : Nat)
    (more : Bool) (f : Frame) : Prop where
  headed : headerLength ≤ f.payload.length
  valid : checksum (f.payload.take headerLength) = 0
  version : (heading f).get "version" = 4
  ihl : (heading f).get "ihl" = 5
  identification : (heading f).get "identification" = identification.toNat
  protocol : (heading f).get "protocol" = p.protocol.toNat
  sender : (heading f).ip "sender_ip" = sender
  target : (heading f).ip "target_ip" = p.ip
  length : (heading f).get "total_length" = headerLength + (carried f).length
  offset : (heading f).get "fragment_offset" * 8 = before
  flags : (heading f).get "flags" = if more then moreFragments else 0
  filled : more = true → 0 < (carried f).length ∧ 8 ∣ (carried f).length

/-- The frames are all fragments of a datagram, in order. -/
structure Fragments (p : Packet) (sender : Ipv4) (identification : UInt16) (frames : List Frame) :
    Prop where
  fragment : ∀ i f, frames[i]? = some f →
    p.IsFragment sender identification ((frames.take i).flatMap carried).length
      (decide (i + 1 < frames.length)) f
  payload : frames.flatMap carried = p.payload
  nonempty : frames ≠ []
  single : p.payload = [] → frames.length = 1

/-! ## §2. The cut. -/

theorem fragmentSize_pos (mtu : Nat) : 0 < fragmentSize mtu := by
  unfold fragmentSize
  omega

theorem eight_dvd_fragmentSize (mtu : Nat) : 8 ∣ fragmentSize mtu := by
  unfold fragmentSize
  omega

/-- The first words are the first octets. -/
theorem flatten_take_words {w : Nat} (hw : 0 < w) (n : Nat) (bs : Bytes) :
    ((bs.words w).take n).flatten = bs.take (n * w) := by
  induction n generalizing bs with
  | zero => simp
  | succ n ih =>
    by_cases hne : bs = []
    · subst hne
      simp
    · rw [Bytes.words_eq_cons hw hne, List.take_succ_cons, List.flatten_cons, ih, Nat.succ_mul,
        Nat.add_comm, List.take_add]

section Cut

variable {size : Nat} (payload : Bytes)

theorem flatten_chunks : (chunks size payload).flatten = payload := by
  unfold chunks
  split
  · next hempty =>
    rw [List.isEmpty_iff.1 hempty]
    rfl
  · exact Bytes.flatten_words size payload

theorem chunks_nil : chunks size [] = [[]] := rfl

theorem chunks_ne_nil (hsize : 0 < size) : chunks size payload ≠ [] := by
  unfold chunks
  split
  · simp
  · next hne => exact Bytes.words_ne_nil hsize (by simpa using hne)

/-- Every chunk starts at a multiple of the size, inside the datagram or at its end. -/
theorem getElem?_chunks (hsize : 0 < size) {i : Nat} {chunk : Bytes}
    (hi : (chunks size payload)[i]? = some chunk) :
    ((chunks size payload).take i).flatten.length = i * size ∧ i * size ≤ payload.length ∧
      chunk.length ≤ size ∧
      (i + 1 < (chunks size payload).length → chunk.length = size) := by
  unfold chunks at hi ⊢
  split at hi
  · next hempty =>
    -- the only chunk of an empty datagram is empty
    obtain ⟨rfl, rfl⟩ : i = 0 ∧ chunk = [] := by
      rw [List.getElem?_singleton] at hi
      split at hi
      · next h0 => exact ⟨h0, (Option.some.inj hi).symm⟩
      · cases hi
    rw [if_pos hempty]
    exact ⟨by simp, by simp, by simp, by simp⟩
  · next hne =>
    rw [if_neg hne]
    rw [Bytes.getElem?_words hsize] at hi
    split at hi
    · next hlt =>
      obtain rfl := Option.some.inj hi
      refine ⟨?_, by omega, List.length_take_le _ _, ?_⟩
      · rw [flatten_take_words hsize, List.length_take]
        omega
      · intro hnext
        rw [Bytes.lt_length_words_iff hsize, Nat.succ_mul] at hnext
        rw [List.length_take, List.length_drop]
        omega
    · cases hi

end Cut
end Packet

/-! ## §3. The frames of a datagram. -/

namespace Layer

variable {l : Layer} (localIp : Ipv4) (packet : Packet) (mac : MacAddress)

theorem take_frame (identification : UInt16) (offset : Nat) (more : Bool) (chunk : Bytes) :
    (l.frame mac (packet.fragmentOctets localIp identification offset more chunk)).payload.take
        headerLength = packet.headerOctets localIp identification offset chunk.length more :=
  List.take_left' (packet.length_headerOctets ..)

theorem carried_frame (identification : UInt16) (offset : Nat) (more : Bool) (chunk : Bytes) :
    carried (l.frame mac (packet.fragmentOctets localIp identification offset more chunk)) =
      chunk :=
  List.drop_left' (packet.length_headerOctets ..)

theorem heading_frame (identification : UInt16) (offset : Nat) (more : Bool) (chunk : Bytes) :
    heading (l.frame mac (packet.fragmentOctets localIp identification offset more chunk)) =
      header.decode (packet.headerOctets localIp identification offset chunk.length more) := by
  unfold heading
  rw [take_frame]

/-- The frames carry the chunks of the datagram. -/
theorem map_carried_frames :
    (l.frames localIp packet mac).map carried = Packet.chunks l.fragmentSize packet.payload := by
  unfold frames
  dsimp only
  rw [List.map_map]
  refine (List.map_congr_left ?_).trans (List.zipIdx_map_fst 0 _)
  rintro ⟨chunk, i⟩ -
  rw [Function.comp_apply]
  dsimp only
  rw [carried_frame]

theorem length_frames :
    (l.frames localIp packet mac).length = (Packet.chunks l.fragmentSize packet.payload).length := by
  rw [← map_carried_frames localIp packet mac, List.length_map]

/-- The frame of each chunk. -/
theorem getElem?_frames {i : Nat} {f : Frame} (hi : (l.frames localIp packet mac)[i]? = some f) :
    ∃ chunk, (Packet.chunks l.fragmentSize packet.payload)[i]? = some chunk ∧
      f = l.frame mac (packet.fragmentOctets localIp l.identification (i * l.fragmentSize)
        (decide (i + 1 < (l.frames localIp packet mac).length)) chunk) := by
  rw [length_frames]
  unfold frames at hi
  dsimp only at hi
  rw [List.getElem?_map, List.getElem?_zipIdx, Option.map_map, Option.map_eq_some_iff] at hi
  obtain ⟨chunk, hchunk, rfl⟩ := hi
  refine ⟨chunk, hchunk, ?_⟩
  rw [Function.comp_apply]
  dsimp only
  rw [Nat.zero_add]

/-- A frame with a chunk of the datagram is a fragment of it. -/
theorem isFragment_frame (identification : UInt16) {offset : Nat} {more : Bool} {chunk : Bytes}
    (hchunk : chunk.length ≤ maxPayloadLength) (hoffset : offset < 65536) (haligned : 8 ∣ offset)
    (hfilled : more = true → 0 < chunk.length ∧ 8 ∣ chunk.length) :
    packet.IsFragment localIp identification offset more
      (l.frame mac (packet.fragmentOctets localIp identification offset more chunk)) := by
  obtain ⟨hversion, hihl, htotal, hflags, hoff, hprotocol, hsender, htarget⟩ :=
    packet.decode_headerOctets localIp identification offset chunk.length more hchunk hoffset
  have hidentification : (header.decode (packet.headerOctets localIp identification offset
      chunk.length more)).get "identification" = identification.toNat :=
    Header.get_decode_encode_of_lt (f := ⟨"identification", 4, 0, 16⟩) header_sound (by decide)
      (by simp [Packet.fragmentFields, Fields.get_set_of_ne]) identification.toNat_lt
  refine
    { headed := ?_
      valid := ?_
      version := ?_
      ihl := ?_
      identification := ?_
      protocol := ?_
      sender := ?_
      target := ?_
      length := ?_
      offset := ?_
      flags := ?_
      filled := ?_ }
  · show headerLength ≤ (packet.headerOctets _ _ _ _ _ ++ chunk).length
    rw [List.length_append, packet.length_headerOctets]
    exact Nat.le_add_right _ _
  · rw [take_frame]
    exact packet.checksum_headerOctets ..
  · rw [heading_frame]
    exact hversion
  · rw [heading_frame]
    exact hihl
  · rw [heading_frame]
    exact hidentification
  · rw [heading_frame]
    exact hprotocol
  · rw [heading_frame]
    exact hsender
  · rw [heading_frame]
    exact htarget
  · rw [heading_frame, htotal, carried_frame, Nat.add_comm]
  · rw [heading_frame, hoff]
    exact Nat.div_mul_cancel haligned
  · rw [heading_frame]
    exact hflags
  · rw [carried_frame]
    exact hfilled

/-- **The frames of a datagram are its fragments.** -/
theorem frames_fragments {mtu : Nat} (hsize : l.fragmentSize = Ip.fragmentSize mtu)
    (hmax : packet.payload.length ≤ maxPayloadLength) :
    packet.Fragments localIp l.identification (l.frames localIp packet mac) := by
  have hpos : 0 < l.fragmentSize := hsize ▸ Packet.fragmentSize_pos mtu
  have hunits : 8 ∣ l.fragmentSize := hsize ▸ Packet.eight_dvd_fragmentSize mtu
  have hcut := map_carried_frames (l := l) localIp packet mac
  refine ⟨?_, ?_, ?_, ?_⟩
  · intro i f hf
    obtain ⟨chunk, hchunk, rfl⟩ := getElem?_frames localIp packet mac hf
    obtain ⟨hbefore, hinside, hle, hfull⟩ := Packet.getElem?_chunks packet.payload hpos hchunk
    have hsum : (((l.frames localIp packet mac).take i).flatMap carried).length =
        i * l.fragmentSize := by
      rw [List.flatMap_def, List.map_take, hcut]
      exact hbefore
    -- a chunk is a part of the datagram, so it is no longer
    have hpart : chunk.length ≤ packet.payload.length := by
      have hsub := (List.sublist_flatten_of_mem (List.mem_of_getElem? hchunk)).length_le
      rwa [Packet.flatten_chunks] at hsub
    rw [hsum]
    refine isFragment_frame localIp packet mac l.identification (by omega)
      (by unfold maxPayloadLength at hmax; omega) (Nat.dvd_mul_left_of_dvd hunits i) ?_
    intro hmore
    rw [decide_eq_true_eq, length_frames] at hmore
    rw [hfull hmore]
    exact ⟨hpos, hunits⟩
  · rw [List.flatMap_def, hcut, Packet.flatten_chunks]
  · intro hnone
    rw [hnone] at hcut
    exact Packet.chunks_ne_nil packet.payload hpos hcut.symm
  · intro hempty
    rw [length_frames, hempty, Packet.chunks_nil]
    rfl

/-- With room for eight octets behind the headers no datagram exceeds the MTU. -/
theorem frames_fit {mtu : Nat} (hsize : l.fragmentSize = Ip.fragmentSize mtu)
    (hmtu : frameOverhead + headerLength + 8 ≤ mtu) :
    ∀ f ∈ l.frames localIp packet mac, f.payload.length ≤ mtu - frameOverhead := by
  intro f hf
  obtain ⟨i, hi⟩ := List.getElem?_of_mem hf
  obtain ⟨chunk, hchunk, rfl⟩ := getElem?_frames localIp packet mac hi
  obtain ⟨-, -, hle, -⟩ := Packet.getElem?_chunks packet.payload
    (hsize ▸ Packet.fragmentSize_pos mtu) hchunk
  rw [hsize] at hle
  show (packet.headerOctets _ _ _ _ _ ++ chunk).length ≤ _
  rw [List.length_append, packet.length_headerOctets]
  unfold Ip.fragmentSize at hle
  unfold frameOverhead headerLength at *
  omega

/-- Each of them is for the station. -/
theorem addressed_frames :
    ∀ f ∈ l.frames localIp packet mac,
      f.target = mac ∧ f.sender = l.mac ∧ f.type = Ethernet.typeIp := by
  intro f hf
  obtain ⟨part, -, rfl⟩ := List.mem_map.1 hf
  exact ⟨rfl, rfl, rfl⟩

end Layer

/-! ## §4. Any datagram. -/

namespace Station

variable {s : Station} {packet : Packet}

/-- A datagram that is too long is taken and counted, and that is all. -/
theorem begin_oversize {outbox : Pipe Packet}
    (hnext : s.layer.crossbar.outbox.take = some (packet, outbox))
    (hlong : maxPayloadLength < packet.payload.length) :
    s.begin.state = { s with layer := { s.layer with
      crossbar := { s.layer.crossbar with outbox }
      stats := { s.layer.stats with txOversize := s.layer.stats.txOversize + 1 } } } := by
  unfold begin
  dsimp only
  rw [hnext]
  dsimp only
  rw [if_pos hlong]
  rfl

/-- **A datagram is conserved by its fragments.**  What the sender sets out to
send for a datagram is all of it, in fragments that fit the MTU; one that no
header could describe is counted, and nothing is sent for it. -/
theorem datagram_conserved (hs : s.layer.Formed) {mtu : Nat}
    (hsize : s.layer.fragmentSize = fragmentSize mtu) (packet : Packet) :
    (packet.payload.length ≤ maxPayloadLength → ∀ mac, ∃ frames,
      (s.startSending packet mac).state.layer.sending = .send frames ∧
      packet.Fragments s.localIp s.layer.identification frames ∧
      (∀ f ∈ frames, f.target = mac ∧ f.sender = s.layer.mac ∧ f.type = Ethernet.typeIp) ∧
      (frameOverhead + headerLength + 8 ≤ mtu →
        ∀ f ∈ frames, f.payload.length ≤ mtu - frameOverhead)) ∧
    (maxPayloadLength < packet.payload.length → ∀ outbox, s.layer.sending = .idle →
      s.layer.crossbar.outbox.take = some (packet, outbox) →
      s.advance.state = { s with layer := { s.layer with
        crossbar := { s.layer.crossbar with outbox }
        stats := { s.layer.stats with txOversize := s.layer.stats.txOversize + 1 } } }) := by
  constructor
  · intro hmax mac
    refine ⟨s.layer.frames s.localIp packet mac, ?_, ?_, ?_, ?_⟩
    · exact Layer.fragment_sending hs s.localIp packet mac
    · exact Layer.frames_fragments s.localIp packet mac hsize hmax
    · exact Layer.addressed_frames s.localIp packet mac
    · exact Layer.frames_fit s.localIp packet mac hsize
  · intro hlong outbox hidle hnext
    have hadvance : s.advance = s.begin := by
      unfold advance
      rw [hidle]
    rw [hadvance]
    exact begin_oversize hnext hlong

/-- With the least MTU for it, seventeen octets leave in two full fragments and a third. -/
theorem datagram_conserved_thirds :
    let s : Station := ⟨.make .broadcast 58 true 4 1, .make 1, .make, ⟨10, 0, 0, 1⟩⟩
    let packet : Packet := ⟨⟨10, 0, 0, 2⟩, 17, List.replicate 17 0xff⟩
    s.layer.Formed ∧ s.layer.fragmentSize = fragmentSize 58 ∧
      ∃ frames, (s.startSending packet .broadcast).state.layer.sending = .send frames ∧
        packet.Fragments s.localIp s.layer.identification frames ∧
        frames.map (·.payload.length) = [28, 28, 21] := by
  intro s packet
  have hs : s.layer.Formed := Layer.formed_make (Or.inr (Or.inr (Or.inl rfl))) ..
  have hmax : packet.payload.length ≤ maxPayloadLength := by decide
  obtain ⟨frames, hsending, hfragments, -⟩ := (datagram_conserved hs rfl packet).1 hmax .broadcast
  refine ⟨hs, rfl, frames, hsending, hfragments, ?_⟩
  have hlengths : (match (s.startSending packet .broadcast).state.layer.sending with
      | .send frames => frames.map (·.payload.length)
      | _ => []) = [28, 28, 21] := by decide +kernel
  rwa [hsending] at hlengths

end Station
end NetBoard.Ip
