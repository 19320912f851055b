/-
  NetBoard.Proofs.Ip.Reception
  ────────────────────────────
  **WHICH FRAMES HOLD A DATAGRAM.**

  The receiver takes a header off a frame with a bus stage, reads its bit
  fields, and makes its checks one after the other.  Here a valid datagram is
  said of the octets of the frame alone, without stage or fields: what the
  receiver takes is exactly that, whatever the width of the bus and whatever
  was received before.  A frame it does not take moves one counter, that of
  the first check the frame fails, and no later frame is read differently.

  Main definitions:

      Wire.version, Wire.ihl, …  — the parts of a header, by the octets
      Valid                      — the frames that hold a datagram for the board
      firstFailed                — the first check that a frame fails
      Stats.dropping             — the counters after a frame that was not taken

  Main statements:

      read_eq              — reading a frame is its first failed check, or its datagram
      Layer.accept_eq      — all that becomes of a frame and of the layer
      Layer.acceptAll_like — what is left of a frame is not seen in later ones
      Layer.accept_valid   — the datagrams taken are the valid ones, and all others are counted
-/
import NetBoard.Proofs.Ip.Datagram

namespace NetBoard

open scoped Power

/-! ## §1. Octets of a string. -/

namespace Bytes

/-- The octet at a place; beyond the end it reads as zero. -/
def octetAt (bs : Bytes) (i : Nat) : UInt8 := bs.getD i 0

/-- The number of the two octets from a place on. -/
def wordAt (bs : Bytes) (i : Nat) : Nat := (bs.octetAt i).toNat * 256 + (bs.octetAt (i + 1)).toNat

/-- The sum of so many words, from the first octet on. -/
def wordTotal (bs : Bytes) : Nat → Nat
  | 0 => 0
  | n + 1 => bs.wordTotal n + bs.wordAt (2 * n)

theorem octetAt_take {bs : Bytes} {i n : Nat} (h : i < n) :
    octetAt (bs.take n) i = bs.octetAt i := by
  unfold octetAt
  rw [List.getD_eq_getElem?_getD, List.getD_eq_getElem?_getD, List.getElem?_take_of_lt h]

theorem wordAt_take {bs : Bytes} {i n : Nat} (h : i + 1 < n) :
    wordAt (bs.take n) i = bs.wordAt i := by
  unfold wordAt
  rw [octetAt_take (by omega), octetAt_take h]

theorem wordAt_drop (bs : Bytes) (n : Nat) : wordAt (bs.drop n) 0 = bs.wordAt n := by
  unfold wordAt octetAt
  simp [List.getD_eq_getElem?_getD]

theorem wordAt_lt (bs : Bytes) (i : Nat) : bs.wordAt i < 2 ^ (16 : Nat) := by
  have hhi := (bs.octetAt i).toNat_lt
  have hlo := (bs.octetAt (i + 1)).toNat_lt
  unfold wordAt
  omega

end Bytes

/-- The words at even places add up to the sum of all. -/
theorem wordSum_take (bs : Bytes) (n : Nat) : wordSum (bs.take (2 * n)) = bs.wordTotal n := by
  induction n with
  | zero => rfl
  | succ n ih =>
    have hword : wordSum ((bs.drop (2 * n)).take 2) = bs.wordAt (2 * n) := by
      rw [← Bytes.wordAt_drop]
      match bs.drop (2 * n) with
      | [] => decide
      | [hi] => exact (Nat.add_zero _).symm
      | hi :: lo :: rest => exact Nat.add_zero _
    rw [Bytes.wordTotal, ← ih, ← hword, Nat.mul_succ, List.take_add]
    by_cases hlong : 2 * n ≤ bs.length
    · have heven : (bs.take (2 * n)).length % 2 = 0 := by
        rw [List.length_take]
        omega
      rw [wordSum_append heven]
    · -- all octets are in the first part
      rw [List.drop_of_length_le (by omega), List.take_nil, List.append_nil]
      rfl

/-- The address written from a place on. -/
def addressAt (bs : Bytes) (i : Nat) : Ipv4 :=
  ⟨bs.octetAt i, bs.octetAt (i + 1), bs.octetAt (i + 2), bs.octetAt (i + 3)⟩

theorem addressAt_take {bs : Bytes} {i n : Nat} (h : i + 3 < n) :
    addressAt (bs.take n) i = addressAt bs i := by
  unfold addressAt
  rw [Bytes.octetAt_take (by omega), Bytes.octetAt_take (by omega), Bytes.octetAt_take (by omega),
    Bytes.octetAt_take h]

namespace Header.Field

variable {f : Field}

/-! A field within one, two or four octets is read from their number. -/

theorem region_octet (h : f.span = 1) (bs : Bytes) : f.region bs = (bs.octetAt f.byte).toNat := by
  have hlt := (bs.octetAt f.byte).toNat_lt
  unfold region
  rw [h]
  show (0 * 256 + (bs.octetAt f.byte).toNat) % 2 ^ 128 = _
  omega

theorem region_word (h : f.span = 2) (bs : Bytes) : f.region bs = bs.wordAt f.byte := by
  have hlt := bs.wordAt_lt f.byte
  unfold Bytes.wordAt at hlt
  unfold region Bytes.wordAt
  rw [h]
  show ((0 * 256 + (bs.octetAt f.byte).toNat) * 256 + (bs.octetAt (f.byte + 1)).toNat) % 2 ^ 128 = _
  omega

theorem region_address (h : f.span = 4) (bs : Bytes) :
    f.region bs = (addressAt bs f.byte).toNat := by
  have hlt := (addressAt bs f.byte).toNat_lt
  unfold region
  rw [h]
  exact Nat.mod_eq_of_lt (Nat.lt_trans hlt (by decide))

end Header.Field

namespace Ip

open Packet (Defect)

/-! ## §2. A header, by its octets. -/

namespace Wire

variable (bs : Bytes)

def version : Nat := (bs.octetAt 0).toNat / 16

/-- The length of the header, in words of four octets. -/
def ihl : Nat := (bs.octetAt 0).toNat % 16

/-- The octets of header and payload. -/
def totalLength : Nat := bs.wordAt 2

/-- Does another fragment follow? -/
def more : Bool := bs.wordAt 6 / 2 ^ (13 : Nat) % 2 == 1

/-- The place of the fragment, in units of eight octets. -/
def offset : Nat := bs.wordAt 6 % 2 ^ (13 : Nat)

def protocol : UInt8 := bs.octetAt 9

def source : Ipv4 := addressAt bs 12

def target : Ipv4 := addressAt bs 16

/-- The sum of the ten words of the header. -/
def total : Nat := bs.wordTotal 10

/-- The datagram, without what follows it. -/
def datagram : Packet := ⟨source bs, protocol bs, (bs.take (totalLength bs)).drop headerLength⟩

end Wire

section Fields

variable (field : Header.Field) (hf : field ∈ header.fields) (bs : Bytes)

include hf

/-- A field is cut out of the number of its octets. -/
theorem get_region :
    (header.decode (bs.take headerLength)).get field.name =
      field.region (bs.take headerLength) / 2 ^ field.offset % 2 ^ field.width := by
  have hwidth : field.width ≤ 64 := (header_sound.1 field hf).2.1
  -- values have 64 bits, and no field is wider
  have hlt : field.region (bs.take headerLength) / 2 ^ field.offset % 2 ^ field.width < 2 ^ 64 :=
    Nat.lt_of_lt_of_le (Nat.mod_lt _ (Nat.two_pow_pos _)) (Nat.pow_le_pow_right (by decide) hwidth)
  rw [Header.get_decode header_sound hf, Header.Field.read, Nat.shiftRight_eq_div_pow,
    Nat.mod_eq_of_lt hlt]

theorem get_octet (hspan : field.span = 1) :
    (header.decode (bs.take headerLength)).get field.name =
      (bs.octetAt field.byte).toNat / 2 ^ field.offset % 2 ^ field.width := by
  have hin : field.byte + field.span ≤ headerLength := (header_sound.1 field hf).1
  rw [get_region field hf, Header.Field.region_octet hspan, Bytes.octetAt_take (by omega)]

theorem get_word (hspan : field.span = 2) :
    (header.decode (bs.take headerLength)).get field.name =
      bs.wordAt field.byte / 2 ^ field.offset % 2 ^ field.width := by
  have hin : field.byte + field.span ≤ headerLength := (header_sound.1 field hf).1
  rw [get_region field hf, Header.Field.region_word hspan, Bytes.wordAt_take (by omega)]

theorem ip_address (hspan : field.span = 4) (hoffset : field.offset = 0)
    (hwidth : field.width = 32) :
    (header.decode (bs.take headerLength)).ip field.name = addressAt bs field.byte := by
  have hin : field.byte + field.span ≤ headerLength := (header_sound.1 field hf).1
  have htake : addressAt (bs.take headerLength) field.byte = addressAt bs field.byte :=
    addressAt_take (by omega)
  have hlt := (addressAt bs field.byte).toNat_lt
  rw [Fields.ip, get_region field hf, Header.Field.region_address hspan, htake, hoffset, hwidth,
    Nat.pow_zero, Nat.div_one, Nat.mod_eq_of_lt hlt, Ipv4.ofNat_toNat]

end Fields

/-- The fields of a header are parts of its octets. -/
theorem decode_wire (bs : Bytes) :
    let values := header.decode (bs.take headerLength)
    values.get "version" = Wire.version bs ∧ values.get "ihl" = Wire.ihl bs ∧
      values.get "total_length" = Wire.totalLength bs ∧
      (values.get "flags" &&& moreFragments ≠ 0 ↔ Wire.more bs = true) ∧
      values.get "fragment_offset" = Wire.offset bs ∧
      UInt8.ofNat (values.get "protocol") = Wire.protocol bs ∧
      values.ip "sender_ip" = Wire.source bs ∧ values.ip "target_ip" = Wire.target bs := by
  refine ⟨?_, ?_, ?_, ?_, ?_, ?_, ?_, ?_⟩
  · -- nothing is left above the high half of an octet
    have hlt := (bs.octetAt 0).toNat_lt
    rw [get_octet ⟨"version", 0, 4, 4⟩ (by decide) bs rfl]
    show (bs.octetAt 0).toNat / 2 ^ 4 % 2 ^ 4 = (bs.octetAt 0).toNat / 16
    omega
  · rw [get_octet ⟨"ihl", 0, 0, 4⟩ (by decide) bs rfl, Nat.pow_zero, Nat.div_one]
    rfl
  · rw [get_word ⟨"total_length", 2, 0, 16⟩ (by decide) bs rfl, Nat.pow_zero,
      Nat.div_one]
    exact Nat.mod_eq_of_lt (bs.wordAt_lt 2)
  · rw [get_word ⟨"flags", 6, 13, 3⟩ (by decide) bs rfl, moreFragments,
      Nat.and_one_is_mod]
    -- of the three flags only the lowest one is looked at
    show bs.wordAt 6 / 2 ^ 13 % 2 ^ 3 % 2 ≠ 0 ↔ (bs.wordAt 6 / 2 ^ 13 % 2 == 1) = true
    rw [beq_iff_eq]
    omega
  · rw [get_word ⟨"fragment_offset", 6, 0, 13⟩ (by decide) bs rfl, Nat.pow_zero,
      Nat.div_one]
    rfl
  · rw [get_octet ⟨"protocol", 9, 0, 8⟩ (by decide) bs rfl, Nat.pow_zero, Nat.div_one,
      Nat.mod_eq_of_lt (bs.octetAt 9).toNat_lt, UInt8.ofNat_toNat]
    rfl
  · exact ip_address ⟨"sender_ip", 12, 0, 32⟩ (by decide) bs rfl rfl rfl
  · exact ip_address ⟨"target_ip", 16, 0, 32⟩ (by decide) bs rfl rfl rfl

/-- The checksum of a header is zero by the sum of its words. -/
theorem checksum_wire (bs : Bytes) :
    checksum (bs.take headerLength) = 0 ↔ Wire.total bs ≠ 0 ∧ Wire.total bs % 65535 = 0 := by
  rw [checksum_eq_zero_iff, show headerLength = 2 * 10 from rfl, wordSum_take, Wire.total]

/-! ## §3. Valid frames. -/

section Checks

variable (promiscuous : Bool) (localIp : Ipv4) (bs : Bytes)

/-- The frame holds a whole datagram without options for the board. -/
structure Valid : Prop where
  complete : 20 ≤ bs.length
  version : Wire.version bs = 4
  ihl : Wire.ihl bs = 5
  nonzero : Wire.total bs ≠ 0
  residue : Wire.total bs % 65535 = 0
  addressed : promiscuous = true ∨ Wire.target bs = localIp
  last : Wire.more bs = false
  first : Wire.offset bs = 0
  header : 20 ≤ Wire.totalLength bs
  payload : Wire.totalLength bs ≤ bs.length

/-- The checks in their order, each with the defect it finds. -/
def checks : List (Defect × Bool) :=
  [(.truncated, 20 ≤ bs.length),
   (.unsupported, Wire.version bs = 4 ∧ Wire.ihl bs = 5),
   (.badChecksum, Wire.total bs ≠ 0 ∧ Wire.total bs % 65535 = 0),
   (.notForUs, promiscuous || Wire.target bs = localIp),
   (.fragment, Wire.more bs = false ∧ Wire.offset bs = 0),
   (.badLength, 20 ≤ Wire.totalLength bs ∧ Wire.totalLength bs ≤ bs.length)]

/-- What the first check finds that the frame fails. -/
def firstFailed : Option Defect :=
  ((checks promiscuous localIp bs).find? fun (_, passed) => !passed).map (·.1)

/-- A frame is valid if it fails no check. -/
theorem firstFailed_eq_none_iff :
    firstFailed promiscuous localIp bs = none ↔ Valid promiscuous localIp bs := by
  have hall : firstFailed promiscuous localIp bs = none ↔
      ∀ check ∈ checks promiscuous localIp bs, check.2 = true := by
    simp [firstFailed]
  rw [hall]
  constructor
  · intro hpassed
    simp only [checks, List.forall_mem_cons, decide_eq_true_eq, Bool.or_eq_true] at hpassed
    obtain ⟨hcomplete, ⟨hversion, hihl⟩, ⟨hnonzero, hresidue⟩, haddressed, ⟨hlast, hfirst⟩,
      ⟨hheader, hpayload⟩, -⟩ := hpassed
    exact ⟨hcomplete, hversion, hihl, hnonzero, hresidue, haddressed, hlast, hfirst, hheader,
      hpayload⟩
  · intro hvalid
    simp only [checks, List.forall_mem_cons, decide_eq_true_eq, Bool.or_eq_true]
    exact ⟨hvalid.complete, ⟨hvalid.version, hvalid.ihl⟩, ⟨hvalid.nonzero, hvalid.residue⟩,
      hvalid.addressed, ⟨hvalid.last, hvalid.first⟩, ⟨hvalid.header, hvalid.payload⟩, by simp⟩

instance : Decidable (Valid promiscuous localIp bs) :=
  decidable_of_iff _ (firstFailed_eq_none_iff promiscuous localIp bs)

/-- The checks as a cascade. -/
theorem firstFailed_of_complete (hcomplete : 20 ≤ bs.length) :
    firstFailed promiscuous localIp bs =
      if ¬ (Wire.version bs = 4 ∧ Wire.ihl bs = 5) then some .unsupported
      else if ¬ (Wire.total bs ≠ 0 ∧ Wire.total bs % 65535 = 0) then some .badChecksum
      else if ¬ (promiscuous = true ∨ Wire.target bs = localIp) then some .notForUs
      else if ¬ (Wire.more bs = false ∧ Wire.offset bs = 0) then some .fragment
      else if ¬ (20 ≤ Wire.totalLength bs ∧ Wire.totalLength bs ≤ bs.length) then
        some .badLength
      else none := by
  have hbool : (promiscuous || decide (Wire.target bs = localIp)) =
      decide (promiscuous = true ∨ Wire.target bs = localIp) := by
    cases promiscuous <;> simp
  have hcheck : ∀ (p : Prop) [Decidable p] (defect : Defect) (rest : List (Defect × Bool)),
      (((defect, decide p) :: rest).find? fun check => !check.2).map (·.1) =
        if ¬ p then some defect else (rest.find? fun check => !check.2).map (·.1) := by
    intro p _ defect rest
    by_cases hp : p <;> simp [hp]
  unfold firstFailed checks
  rw [hbool, hcheck, hcheck, hcheck, hcheck, hcheck, hcheck, if_neg (not_not_intro hcomplete)]
  rfl

/-- Behind a complete header the checks are made on its fields. -/
theorem ofFields_wire (hcomplete : 20 ≤ bs.length) :
    Packet.ofFields localIp promiscuous bs (header.decode (bs.take headerLength))
        (bs.drop headerLength) =
      (firstFailed promiscuous localIp bs).elim (.ok (Wire.datagram bs)) .error := by
  obtain ⟨hversion, hihl, htotal, hmore, hoffset, hprotocol, hsource, htarget⟩ := decode_wire bs
  -- each condition of the code is that a check fails
  have hkind : (Wire.version bs ≠ 4 ∨ Wire.ihl bs ≠ 5) ↔
      ¬ (Wire.version bs = 4 ∧ Wire.ihl bs = 5) := by omega
  have hforeign : (!promiscuous && Wire.target bs != localIp) = true ↔
      ¬ (promiscuous = true ∨ Wire.target bs = localIp) := by
    cases promiscuous <;> simp
  have hpart : (Wire.more bs = true ∨ Wire.offset bs ≠ 0) ↔
      ¬ (Wire.more bs = false ∧ Wire.offset bs = 0) := by
    cases Wire.more bs <;> simp
  have hlength : (Wire.totalLength bs < headerLength ∨
      (bs.drop headerLength).length < Wire.totalLength bs - headerLength) ↔
      ¬ (20 ≤ Wire.totalLength bs ∧ Wire.totalLength bs ≤ bs.length) := by
    rw [List.length_drop, headerLength]
    omega
  have hdatagram : (bs.drop headerLength).take (Wire.totalLength bs - headerLength) =
      (bs.take (Wire.totalLength bs)).drop headerLength := List.drop_take.symm
  rw [firstFailed_of_complete promiscuous localIp bs hcomplete]
  -- both sides are now cascades of the same conditions
  simp only [apply_ite fun found : Option Defect => found.elim (Except.ok (Wire.datagram bs)) .error]
  unfold Packet.ofFields
  simp only [hversion, hihl, htotal, hmore, hoffset, hprotocol, hsource, htarget, hkind, hforeign,
    hpart, hlength, hdatagram, ne_eq (checksum _), checksum_wire bs]
  rfl

end Checks

/-- Reading a frame gives the first check that it fails, or its datagram. -/
theorem read_eq {d : Depacketizer} (hd : d.Reads header) (promiscuous : Bool) (localIp : Ipv4)
    (bs : Bytes) :
    (Packet.read d localIp promiscuous bs).2 =
      (firstFailed promiscuous localIp bs).elim (.ok (Wire.datagram bs)) .error := by
  have hpacket := hd.packet (by decide) bs
  unfold Packet.read
  dsimp only
  rw [hpacket]
  by_cases hshort : bs.length < header.length
  · have htruncated : firstFailed promiscuous localIp bs = some .truncated := by
      have hcheck : decide (20 ≤ bs.length) = false := decide_eq_false (Nat.not_le_of_lt hshort)
      unfold firstFailed checks
      rw [hcheck]
      rfl
    rw [if_pos hshort, htruncated]
    rfl
  · rw [if_neg hshort]
    exact ofFields_wire promiscuous localIp bs (Nat.not_lt.mp hshort)

/-- The header of a frame is in its first octets. -/
theorem wire_congr {bs bs' : Bytes} (h : bs'.take headerLength = bs.take headerLength) :
    Wire.version bs' = Wire.version bs ∧ Wire.ihl bs' = Wire.ihl bs ∧
      Wire.totalLength bs' = Wire.totalLength bs ∧ Wire.more bs' = Wire.more bs ∧
      Wire.offset bs' = Wire.offset bs ∧ Wire.protocol bs' = Wire.protocol bs ∧
      Wire.source bs' = Wire.source bs ∧ Wire.target bs' = Wire.target bs ∧
      Wire.total bs' = Wire.total bs := by
  have hoctet : ∀ i < headerLength, bs'.octetAt i = bs.octetAt i := by
    intro i hi
    rw [← Bytes.octetAt_take hi, h, Bytes.octetAt_take hi]
  have hword : ∀ i, i + 1 < headerLength → bs'.wordAt i = bs.wordAt i := by
    intro i hi
    rw [← Bytes.wordAt_take hi, h, Bytes.wordAt_take hi]
  have haddress : ∀ i, i + 3 < headerLength → addressAt bs' i = addressAt bs i := by
    intro i hi
    rw [← addressAt_take hi, h, addressAt_take hi]
  have htotal : Wire.total bs' = Wire.total bs := by
    rw [Wire.total, Wire.total, ← wordSum_take, ← wordSum_take]
    exact congrArg wordSum h
  unfold Wire.version Wire.ihl Wire.totalLength Wire.more Wire.offset Wire.protocol Wire.source
    Wire.target
  rw [hoctet 0 (by decide), hword 2 (by decide), hword 6 (by decide), hoctet 9 (by decide),
    haddress 12 (by decide), haddress 16 (by decide)]
  exact ⟨rfl, rfl, rfl, rfl, rfl, rfl, rfl, rfl, htotal⟩

/-- A valid frame stays one, with its datagram, whatever stands behind its total length. -/
theorem Valid.padding {promiscuous : Bool} {localIp : Ipv4} {bs bs' : Bytes}
    (h : Valid promiscuous localIp bs)
    (htake : bs'.take (Wire.totalLength bs) = bs.take (Wire.totalLength bs))
    (hlong : Wire.totalLength bs ≤ bs'.length) :
    Valid promiscuous localIp bs' ∧ Wire.datagram bs' = Wire.datagram bs := by
  have hhead : bs'.take headerLength = bs.take headerLength := by
    have hmin : min headerLength (Wire.totalLength bs) = headerLength := Nat.min_eq_left h.header
    have hcut := congrArg (List.take headerLength) htake
    rwa [List.take_take, List.take_take, hmin] at hcut
  obtain ⟨hversion, hihl, hlength, hmore, hoffset, hprotocol, hsource, htarget, htotal⟩ :=
    wire_congr hhead
  constructor
  · exact
      { complete := Nat.le_trans h.header hlong
        version := hversion.trans h.version
        ihl := hihl.trans h.ihl
        nonzero := by rw [htotal]; exact h.nonzero
        residue := by rw [htotal]; exact h.residue
        addressed := by rw [htarget]; exact h.addressed
        last := hmore.trans h.last
        first := hoffset.trans h.first
        header := by rw [hlength]; exact h.header
        payload := by rw [hlength]; exact hlong }
  · unfold Wire.datagram
    rw [hsource, hprotocol, hlength, htake]

/-! ## §4. The layer. -/

/-- One if what was found is one of these defects. -/
def hits (found : Option Defect) (defects : List Defect) : Nat :=
  if found.any (· ∈ defects) then 1 else 0

/-- The counters after a frame in which this was found: one of them moves, and
none if nothing was. -/
def Stats.dropping (s : Stats) (found : Option Defect) : Stats :=
  { s with
    invalid := s.invalid + hits found [.truncated, .unsupported, .badLength]
    checksumErrors := s.checksumErrors + hits found [.badChecksum]
    notForUs := s.notForUs + hits found [.notForUs]
    fragmentsDropped := s.fragmentsDropped + hits found [.fragment] }

/-- All frames that were not taken. -/
def Stats.dropped (s : Stats) : Nat :=
  s.invalid + s.checksumErrors + s.notForUs + s.fragmentsDropped

theorem dropped_dropping (s : Stats) (defect : Defect) :
    (s.dropping (some defect)).dropped = s.dropped + 1 := by
  unfold Stats.dropped Stats.dropping
  cases defect <;> simp [hits] <;> omega

theorem dropping_none (s : Stats) : s.dropping none = s := rfl

theorem countDefect_eq (d : Defect) (s : Stats) :
    Layer.countDefect d s = s.dropping (some d) := by
  cases d <;> rfl

/-- Defects are counted in any order. -/
theorem dropping_comm (s : Stats) (found found' : Option Defect) :
    (s.dropping found).dropping found' = (s.dropping found').dropping found := by
  unfold Stats.dropping
  dsimp only
  rw [Nat.add_right_comm s.invalid, Nat.add_right_comm s.checksumErrors,
    Nat.add_right_comm s.notForUs, Nat.add_right_comm s.fragmentsDropped]

namespace Layer

variable {l : Layer}

/-- All that becomes of a frame, and of the layer. -/
theorem accept_eq (hl : l.depacketizer.Reads header) (localIp : Ipv4) (bs : Bytes) :
    l.accept localIp bs =
      let found := firstFailed l.promiscuous localIp bs
      ({ l with
          depacketizer := (l.depacketizer.depacketize bs).1
          stats := l.stats.dropping found },
        found.elim (some (Wire.datagram bs)) fun _ => none,
        (found.bind Packet.Defect.reason?).toList.map fun reason =>
          ⟨Log.medium, source, s!"rx datagram dropped, {reason}"⟩) := by
  have hread : Packet.read l.depacketizer localIp l.promiscuous bs =
      ((l.depacketizer.depacketize bs).1,
        (firstFailed l.promiscuous localIp bs).elim (.ok (Wire.datagram bs)) .error) :=
    Prod.ext rfl (read_eq hl l.promiscuous localIp bs)
  unfold accept
  rw [hread]
  cases firstFailed l.promiscuous localIp bs with
  | none => rfl
  | some defect => cases defect <;> rfl

/-- Frames received one after the other, with what becomes of each. -/
def acceptAll (l : Layer) : List (Ipv4 × Bytes) → Layer × List (Option Packet × List Log.Line)
  | [] => (l, [])
  | (localIp, bs) :: rest =>
    let (l, taken) := l.accept localIp bs
    let (l, others) := l.acceptAll rest
    (l, taken :: others)

theorem acceptAll_cons (l : Layer) (localIp : Ipv4) (bs : Bytes) (rest : List (Ipv4 × Bytes)) :
    l.acceptAll ((localIp, bs) :: rest) =
      (((l.accept localIp bs).1.acceptAll rest).1,
        (l.accept localIp bs).2 :: ((l.accept localIp bs).1.acceptAll rest).2) := rfl

/-- The layers differ in what the stage has seen, and by what was found in a frame. -/
structure Like (l l' : Layer) (found : Option Defect) : Prop where
  same : { l' with depacketizer := l.depacketizer, stats := l.stats } = l
  stage : l'.depacketizer.reset = l.depacketizer.reset
  stats : l'.stats = l.stats.dropping found

/-- The layer after a frame is like the one before. -/
theorem like_accept (hl : l.depacketizer.Reads header) (localIp : Ipv4) (bs : Bytes) :
    l.Like (l.accept localIp bs).1 (firstFailed l.promiscuous localIp bs) := by
  rw [accept_eq hl]
  exact ⟨rfl, l.depacketizer.reset_depacketize bs, rfl⟩

variable {l' : Layer} {found : Option Defect}

/-- A frame is the same to both, and what was found before stays counted. -/
theorem Like.accept (h : l.Like l' found) (localIp : Ipv4) (bs : Bytes) :
    (l'.accept localIp bs).2 = (l.accept localIp bs).2 ∧
      (l.accept localIp bs).1.Like (l'.accept localIp bs).1 found := by
  obtain ⟨hsame, hstage, hstats⟩ := h
  -- a stage forgets all earlier packets before it takes the next one
  have hstages : l'.depacketizer.depacketize bs = l.depacketizer.depacketize bs := by
    rw [← Depacketizer.depacketize_reset, hstage, Depacketizer.depacketize_reset]
  have hread : Packet.read l'.depacketizer localIp l'.promiscuous bs =
      Packet.read l.depacketizer localIp l.promiscuous bs := by
    have hpromiscuous : l'.promiscuous = l.promiscuous := by rw [← hsame]
    unfold Packet.read
    rw [hstages, hpromiscuous]
  unfold Layer.accept
  rw [hread]
  cases Packet.read l.depacketizer localIp l.promiscuous bs with
  | mk depacketizer result =>
    cases result with
    | ok packet => exact ⟨rfl, by rw [← hsame], rfl, hstats⟩
    | error defect =>
      refine ⟨rfl, by rw [← hsame], rfl, ?_⟩
      dsimp only
      rw [hstats, countDefect_eq, countDefect_eq, dropping_comm]

/-- So are all later frames. -/
theorem acceptAll_like (frames : List (Ipv4 × Bytes)) :
    ∀ {l l' : Layer}, l.Like l' found →
      (l'.acceptAll frames).2 = (l.acceptAll frames).2 ∧
        (l.acceptAll frames).1.Like (l'.acceptAll frames).1 found := by
  induction frames with
  | nil =>
    intro l l' h
    exact ⟨rfl, h⟩
  | cons frame rest ih =>
    intro l l' h
    obtain ⟨localIp, bs⟩ := frame
    obtain ⟨htaken, hnext⟩ := h.accept localIp bs
    obtain ⟨hothers, hlast⟩ := ih hnext
    rw [acceptAll_cons, acceptAll_cons, htaken, hothers]
    exact ⟨rfl, hlast⟩

/-- **A frame is taken exactly if it is valid**, on a bus of any supported
width and whatever was received before.  The datagram is that of its octets up
to the total length, and no octet from there on matters.  Of any other frame
the first check it fails is counted, once; and but for that count every later
frame is received as if the frame had never been there. -/
theorem accept_valid (hl : l.depacketizer.Reads header) (localIp : Ipv4) (bs : Bytes) :
    let after := (l.accept localIp bs).1
    let taken := (l.accept localIp bs).2.1
    let found := firstFailed l.promiscuous localIp bs
    (taken.isSome = true ↔ Valid l.promiscuous localIp bs) ∧
      (taken.isSome = true →
        taken = some ⟨Wire.source bs, Wire.protocol bs,
          (bs.take (Wire.totalLength bs)).drop 20⟩ ∧
        after.stats = l.stats ∧
        ∀ bs' : Bytes, bs'.take (Wire.totalLength bs) = bs.take (Wire.totalLength bs) →
          Wire.totalLength bs ≤ bs'.length → (l.accept localIp bs').2.1 = taken) ∧
      (taken = none → ∃ defect, found = some defect ∧
        after.stats = l.stats.dropping (some defect) ∧
        after.stats.dropped = l.stats.dropped + 1) ∧
      after.depacketizer.Reads header ∧ l.Like after found ∧
      ∀ later : List (Ipv4 × Bytes),
        (after.acceptAll later).2 = (l.acceptAll later).2 ∧
          (l.acceptAll later).1.Like (after.acceptAll later).1 found := by
  intro after taken found
  have htaken : ∀ bs : Bytes, (l.accept localIp bs).2.1 =
      (firstFailed l.promiscuous localIp bs).elim (some (Wire.datagram bs)) fun _ => none := by
    intro bs
    rw [accept_eq hl]
  have hstats : after.stats = l.stats.dropping found := (like_accept hl localIp bs).stats
  have hsome : taken.isSome = true ↔ found = none := by
    show (l.accept localIp bs).2.1.isSome = true ↔ firstFailed l.promiscuous localIp bs = none
    rw [htaken]
    cases firstFailed l.promiscuous localIp bs <;> simp
  have hvalid : found = none ↔ Valid l.promiscuous localIp bs :=
    firstFailed_eq_none_iff l.promiscuous localIp bs
  have hlike := like_accept hl localIp bs
  refine ⟨hsome.trans hvalid, ?_, ?_, ?_, hlike, fun later => acceptAll_like later hlike⟩
  · intro hgiven
    have hnone := hsome.mp hgiven
    have hdatagram : taken = some (Wire.datagram bs) := by
      show (l.accept localIp bs).2.1 = _
      rw [htaken, show firstFailed l.promiscuous localIp bs = none from hnone]
      rfl
    refine ⟨hdatagram, by rw [hstats, hnone, dropping_none], ?_⟩
    intro bs' htake hlong
    obtain ⟨hvalid', hsame⟩ := (hvalid.mp hnone).padding htake hlong
    rw [htaken, (firstFailed_eq_none_iff _ _ _).mpr hvalid', hdatagram, ← hsame]
    rfl
  · intro hrefused
    obtain ⟨defect, hdefect⟩ : ∃ defect, found = some defect := by
      apply Option.ne_none_iff_exists'.mp
      intro hnone
      have hgiven := hsome.mpr hnone
      rw [hrefused] at hgiven
      exact absurd hgiven (by decide)
    rw [hdefect] at hstats
    exact ⟨defect, hdefect, hstats, by rw [hstats, dropped_dropping]⟩
  · show (l.accept localIp bs).1.depacketizer.Reads header
    rw [accept_eq hl]
    exact hl.next (by decide) bs

/-- A datagram of two octets, with two octets of padding, on a bus of two. -/
theorem accept_valid_padded :
    let l := Layer.make ⟨2, 0, 0, 0, 0, 1⟩ 1500 false 2 4
    let bs : Bytes := [0x45, 0, 0, 0x16, 0, 1, 0x40, 0, 0x80, 0x11, 0xe6, 0xd3, 10, 0, 0, 1,
      10, 0, 0, 2, 0xca, 0xfe, 0, 0]
    l.depacketizer.Reads header ∧
      (l.accept ⟨10, 0, 0, 2⟩ bs).2.1 = some ⟨⟨10, 0, 0, 1⟩, 0x11, [0xca, 0xfe]⟩ := by
  intro l bs
  have hl : l.depacketizer.Reads header :=
    (formed_make (.inr (.inl rfl)) ⟨2, 0, 0, 0, 0, 1⟩ 1500 false 4).depacketizer
  have hvalid : Valid false ⟨10, 0, 0, 2⟩ bs := by decide
  obtain ⟨hiff, hgives, -⟩ := accept_valid hl ⟨10, 0, 0, 2⟩ bs
  have hgiven := (hgives (hiff.mpr hvalid)).1
  exact ⟨hl, hgiven.trans (by decide)⟩

end Layer

end Ip
end NetBoard
