/-
  NetBoard.Proofs.Etherbone.Interpreter
  ─────────────────────────────────────
  **PACKETS RUN ONE AT A TIME.**

  The reference for an endpoint: a packet is checked, run to its end and
  answered before the next one is looked at.  Packets are read and written
  octet by octet; there are no queues, no beats and no states between packets.

  Main definitions:

      record?              — the record that is the whole of a payload
      execute              — all writes of a record, then all its reads
      Interpreter.handle   — one packet
      Interpreter.run      — packets, the first one first

  Main statements:

      replies_prefix_run   — replies are only added
      encode_packetFields, encode_recordFields, decode_packet, decode_record
                           — these octets are what the header tables say
-/
import NetBoard.Etherbone.Endpoint
import NetBoard.Proofs.Header.Fields

namespace NetBoard.Etherbone

/-! ## §1. Octets. -/

/-- The header of a packet that is sent: no answer to a probe is asked for. -/
def packetOctets (nr pr : Nat) : Bytes :=
  [0x4e, 0x6f, UInt8.ofNat (16 + 4 * nr + 2 * pr), 0x44, 0, 0, 0, 0]

/-- The header of a record of writes. -/
def recordOctets (byteEnable : UInt8) (writes : Nat) : Bytes :=
  [0, byteEnable, UInt8.ofNat writes, 0]

/-- The shape of the record that is the whole of a payload, and its words. -/
def record? : Bytes → Option (Shape × List UInt32)
  | _ :: byteEnable :: writes :: reads :: data =>
    let shape : Shape := ⟨byteEnable, writes, reads⟩
    if data.length = 4 * shape.words then some (shape, octetWords data) else none
  | _ => none

/-! ## §2. Records. -/

/-- The words of one half of a record: none, or an address in front. -/
def half (count : UInt8) : Nat := if count = 0 then 0 else 1 + count.toNat

/-- Run the first half: its words are written one after the other, from the
address in front on. -/
def writeAll (m : Sram) (sel : UInt8) : List UInt32 → Sram
  | [] => m
  | base :: data =>
    data.zipIdx.foldl (fun m (word, i) => m.write ((base >>> 2) + UInt32.ofNat i) word sel) m

/-- Run the second half: its return address, and what is read at its addresses. -/
def readAll (m : Sram) (sel : UInt8) : List UInt32 → List UInt32
  | [] => []
  | returnTo :: addresses => returnTo :: addresses.map fun (a : UInt32) => m.read (a >>> 2) sel

/-- Run a record, all writes before all reads: the memory after it and the
words of the answer. -/
def execute (m : Sram) (shape : Shape) (words : List UInt32) : Sram × List UInt32 :=
  let sel := shape.byteEnable &&& 0x0f
  let written := writeAll m sel (words.take (half shape.writes))
  (written, readAll written sel (words.drop (half shape.writes)))

/-- The record that answers, if there were reads: writes to the return address. -/
def answersOf (shape : Shape) (answer : List UInt32) : List Bytes :=
  if answer.isEmpty then []
  else [recordOctets shape.byteEnable (answer.length - 1) ++ wordOctets answer]

/-! ## §3. Packets. -/

/-- The memory and everything sent so far, with the packets by their kind. -/
structure Interpreter where
  bus : Sram
  /-- The oldest first. -/
  replies : List Udp.UserPacket := []
  probes : Nat := 0
  records : Nat := 0
  badMagic : Nat := 0
  malformed : Nat := 0
  deriving Repr, DecidableEq

namespace Interpreter

/-- A packet to the station at `ip`, on the port of the endpoint. -/
def packetTo (port : UInt16) (ip : Ipv4) (bs : Bytes) : Udp.UserPacket :=
  .ofBytes ip port port bs busWidth

/-- Answer a probe: its payload comes back, and the third flag is repeated. -/
def answerProbe (i : Interpreter) (port : UInt16) (ip : Ipv4) (flags : UInt8) (payload : Bytes) :
    Interpreter :=
  let reply := packetTo port ip (packetOctets (flags.toNat / 4 % 2) 1 ++ payload)
  { i with probes := i.probes + 1, replies := i.replies ++ [reply] }

/-- Run the record that is the whole of a payload, if it is one. -/
def runRecord (i : Interpreter) (port : UInt16) (ip : Ipv4) (payload : Bytes) : Interpreter :=
  match record? payload with
  | none => { i with malformed := i.malformed + 1 }
  | some (shape, words) =>
    let (bus, answer) := execute i.bus shape words
    let replies := (answersOf shape answer).map fun record =>
      packetTo port ip (packetOctets 0 0 ++ record)
    { i with bus, records := i.records + 1, replies := i.replies ++ replies }

/-- Handle one packet; the lowest flag tells a probe from a record. -/
def handle (i : Interpreter) (port : UInt16) (packet : Udp.UserPacket) : Interpreter :=
  match packet.bytes busWidth with
  | m₁ :: m₀ :: flags :: _ :: _ :: _ :: _ :: _ :: payload =>
    if ¬ (m₁ = 0x4e ∧ m₀ = 0x6f) then { i with badMagic := i.badMagic + 1 }
    else if flags.toNat % 2 = 1 then i.answerProbe port packet.ip flags payload
    else i.runRecord port packet.ip payload
  | _ => { i with malformed := i.malformed + 1 }

theorem handle_of_octets (i : Interpreter) (port : UInt16) {packet : Udp.UserPacket}
    {m₁ m₀ flags size a b c d : UInt8} {payload : Bytes}
    (h : packet.bytes busWidth = m₁ :: m₀ :: flags :: size :: a :: b :: c :: d :: payload) :
    i.handle port packet =
      if ¬ (m₁ = 0x4e ∧ m₀ = 0x6f) then { i with badMagic := i.badMagic + 1 }
      else if flags.toNat % 2 = 1 then i.answerProbe port packet.ip flags payload
      else i.runRecord port packet.ip payload := by
  unfold handle
  rw [h]

theorem handle_of_short (i : Interpreter) (port : UInt16) {packet : Udp.UserPacket}
    (h : (packet.bytes busWidth).length < 8) :
    i.handle port packet = { i with malformed := i.malformed + 1 } := by
  unfold handle
  split
  · next hbytes =>
    rw [hbytes] at h
    simp only [List.length_cons] at h
    omega
  · rfl

/-- Handle packets one after the other. -/
def run (i : Interpreter) (port : UInt16) (packets : List Udp.UserPacket) : Interpreter :=
  packets.foldl (handle · port) i

theorem run_append (port : UInt16) (i : Interpreter) (xs ys : List Udp.UserPacket) :
    i.run port (xs ++ ys) = (i.run port xs).run port ys :=
  List.foldl_append

theorem replies_prefix_runRecord (port : UInt16) (i : Interpreter) (ip : Ipv4) (payload : Bytes) :
    i.replies <+: (i.runRecord port ip payload).replies := by
  unfold runRecord
  split
  · exact List.prefix_refl _
  · exact List.prefix_append ..

/-- A packet adds replies only. -/
theorem replies_prefix_handle (port : UInt16) (i : Interpreter) (packet : Udp.UserPacket) :
    i.replies <+: (i.handle port packet).replies := by
  unfold handle
  split
  · split
    · exact List.prefix_refl _
    · split
      · exact List.prefix_append ..
      · exact replies_prefix_runRecord ..
  · exact List.prefix_refl _

/-- More packets add replies only. -/
theorem replies_prefix_run (port : UInt16) (i : Interpreter) (packets : List Udp.UserPacket) :
    i.replies <+: (i.run port packets).replies := by
  induction packets generalizing i with
  | nil => exact List.prefix_refl _
  | cons packet packets ih => exact (replies_prefix_handle port i packet).trans (ih _)

end Interpreter

/-! ## §4. The header tables. -/

theorem packetHeader_sound : packetHeader.Sound := by decide

theorem recordHeader_sound : recordHeader.Sound := by decide

/-- The octets of the header of a reply. -/
theorem encode_packetFields {nr pr : Nat} (hnr : nr < 2) (hpr : pr < 2) :
    packetHeader.encode (((((((({} : Fields).set "magic" magic).set "version" 1).set "nr" nr).set
      "pr" pr).set "pf" 0).set "addr_size" 4).set "port_size" 4) = packetOctets nr pr := by
  obtain rfl | rfl : nr = 0 ∨ nr = 1 := by omega
  · obtain rfl | rfl : pr = 0 ∨ pr = 1 := by omega
    · decide
    · decide
  · obtain rfl | rfl : pr = 0 ∨ pr = 1 := by omega
    · decide
    · decide

/-- The octets of the header of a record of writes. -/
theorem encode_recordFields (byteEnable : UInt8) (writes : Nat) :
    recordHeader.encode (((({} : Fields).set "byte_enable" byteEnable.toNat).set
      "wcount" writes).set "rcount" 0) = recordOctets byteEnable writes := by
  have hbe : (⟨"byte_enable", 1, 0, 8⟩ : Header.Field) ∈ recordHeader.fields := by decide
  have hwrites : (⟨"wcount", 2, 0, 8⟩ : Header.Field) ∈ recordHeader.fields := by decide
  have hreads : (⟨"rcount", 3, 0, 8⟩ : Header.Field) ∈ recordHeader.fields := by decide
  have hempty : recordHeader.encode {} = [0, 0, 0, 0] := by decide
  rw [Header.encode_set recordHeader_sound _ hreads, Header.encode_set recordHeader_sound _ hwrites,
    Header.encode_set recordHeader_sound _ hbe, hempty, Header.Field.write_whole rfl rfl,
    Header.Field.write_whole rfl rfl, Header.Field.write_whole rfl rfl]
  show [0, UInt8.ofNat (byteEnable.toNat / 256 ^ 0), UInt8.ofNat (writes / 256 ^ 0), 0] = _
  rw [Nat.pow_zero, Nat.div_one, Nat.div_one, UInt8.ofNat_toNat]
  rfl

/-- What the header of a packet says. -/
theorem decode_packet (m₁ m₀ flags size a b c d : UInt8) :
    let values := packetHeader.decode [m₁, m₀, flags, size, a, b, c, d]
    values.get "magic" = m₁.toNat * 256 + m₀.toNat ∧ values.get "pf" = flags.toNat % 2 ∧
      values.get "nr" = flags.toNat / 4 % 2 := by
  have hmagic : (⟨"magic", 0, 0, 16⟩ : Header.Field) ∈ packetHeader.fields := by decide
  have hpf : (⟨"pf", 2, 0, 1⟩ : Header.Field) ∈ packetHeader.fields := by decide
  have hnr : (⟨"nr", 2, 2, 1⟩ : Header.Field) ∈ packetHeader.fields := by decide
  have hfits : (⟨"magic", 0, 0, 16⟩ : Header.Field).Fits 8 := by decide
  have hflags : Bytes.toNatBE [flags] = flags.toNat := by simp [Bytes.toNatBE]
  have hlt := flags.toNat_lt
  refine ⟨?_, ?_, ?_⟩
  · rw [Header.get_decode packetHeader_sound hmagic, Header.Field.read_whole hfits rfl rfl]
    show (0 * 256 + m₁.toNat) * 256 + m₀.toNat = _
    omega
  · have hregion : (⟨"pf", 2, 0, 1⟩ : Header.Field).region [m₁, m₀, flags, size, a, b, c, d] =
        flags.toNat :=
      (Header.Field.region_eq (show Header.Field.Fits _ 8 by decide)).trans hflags
    rw [Header.get_decode packetHeader_sound hpf, Header.Field.read, hregion]
    show flags.toNat >>> 0 % 2 ^ 1 % 2 ^ 64 = _
    rw [Nat.shiftRight_zero]
    omega
  · have hregion : (⟨"nr", 2, 2, 1⟩ : Header.Field).region [m₁, m₀, flags, size, a, b, c, d] =
        flags.toNat :=
      (Header.Field.region_eq (show Header.Field.Fits _ 8 by decide)).trans hflags
    rw [Header.get_decode packetHeader_sound hnr, Header.Field.read, hregion]
    show flags.toNat >>> 2 % 2 ^ 1 % 2 ^ 64 = _
    rw [Nat.shiftRight_eq_div_pow]
    omega

/-- What the header of a record says. -/
theorem decode_record (flags byteEnable writes reads : UInt8) :
    Shape.ofFields (recordHeader.decode [flags, byteEnable, writes, reads]) =
      ⟨byteEnable, writes, reads⟩ := by
  have hbe : (⟨"byte_enable", 1, 0, 8⟩ : Header.Field) ∈ recordHeader.fields := by decide
  have hwrites : (⟨"wcount", 2, 0, 8⟩ : Header.Field) ∈ recordHeader.fields := by decide
  have hreads : (⟨"rcount", 3, 0, 8⟩ : Header.Field) ∈ recordHeader.fields := by decide
  have hone : ∀ b : UInt8, UInt8.ofNat (Bytes.toNatBE [b]) = b := by
    intro b
    simp [Bytes.toNatBE]
  unfold Shape.ofFields
  rw [Header.get_decode recordHeader_sound hbe, Header.get_decode recordHeader_sound hwrites,
    Header.get_decode recordHeader_sound hreads,
    Header.Field.read_whole (show Header.Field.Fits _ 4 by decide) rfl rfl,
    Header.Field.read_whole (show Header.Field.Fits _ 4 by decide) rfl rfl,
    Header.Field.read_whole (show Header.Field.Fits _ 4 by decide) rfl rfl]
  show (⟨UInt8.ofNat (Bytes.toNatBE [byteEnable]), UInt8.ofNat (Bytes.toNatBE [writes]),
    UInt8.ofNat (Bytes.toNatBE [reads])⟩ : Shape) = _
  rw [hone, hone, hone]

end NetBoard.Etherbone
