/-
  NetBoard.Proofs.Header.Codec
  ────────────────────────────
  **WRITING AND READING A HEADER ARE INVERSE ON ITS FIELDS.**

  A field is written by reading the octets it touches, replacing its bits, and
  writing them back, so that fields which share octets are written into each
  other's windows.  Seen as bits of the header's number nothing of this is left:
  a bit is set if it belongs to a field in whose value it is set.  This does not
  mention the order of the fields, nor any but the low bits of their values, and
  everything about the codec follows from it and from what a read cuts out.

  Main definitions:

      Field.Covers    — a bit of the header's number belongs to a field
      WellFormed      — fields with names of their own, and bits of their own
      Faithful        — what writing and reading have to do
      Inverse         — writing and reading undo each other

  Main statements:

      wellFormed_iff         — intervals that share no bit lie apart
      testBit_encode         — the bits of a written header
      encode_perm, decode_perm
                             — the order of the fields does not matter
      encode_eq_iff          — only the low bits of the fields matter
      testBit_encode_decode  — what is read is written back
      codec_bijective        — of every table, and of those of the protocols
-/
import NetBoard.Proofs.Arp.Message
import NetBoard.Proofs.Ethernet.Framing
import NetBoard.Proofs.Icmp.EchoReply
import NetBoard.Proofs.Ip.Datagram
import NetBoard.Proofs.Udp.Datagram

namespace NetBoard.Header

open scoped Power

open Bytes (toNatBE)

/-! ## §1. Tables. -/

/-- Bit `j` of the number of `length` octets belongs to the field. -/
def Field.Covers (f : Field) (length j : Nat) : Prop :=
  f.low length ≤ j ∧ j < f.low length + f.width

instance (f : Field) (length j : Nat) : Decidable (f.Covers length j) :=
  inferInstanceAs (Decidable (_ ∧ _))

/-- Bit `j` belongs to some field. -/
def Describes (h : Header) (j : Nat) : Prop := ∃ f ∈ h.fields, f.Covers h.length j

instance (h : Header) (j : Nat) : Decidable (h.Describes j) :=
  inferInstanceAs (Decidable (∃ f ∈ h.fields, _))

/-- The fields have different names, some bits each, lie within the header, and
no bit belongs to two of them. -/
structure WellFormed (h : Header) : Prop where
  names : h.fields.Pairwise fun f g => f.name ≠ g.name
  widths : ∀ f ∈ h.fields, 1 ≤ f.width ∧ f.width ≤ 64 ∧ f.offset + f.width ≤ 128
  inside : ∀ f ∈ h.fields, f.byte + f.span ≤ h.length
  disjoint : h.fields.Pairwise fun f g => ∀ j, ¬ (f.Covers h.length j ∧ g.Covers h.length j)

/-- Intervals that share no bit lie apart, unless one is empty. -/
theorem Field.apart_iff {f g : Field} {length : Nat} (hf : 1 ≤ f.width) (hg : 1 ≤ g.width) :
    f.Apart g length ↔ ∀ j, ¬ (f.Covers length j ∧ g.Covers length j) := by
  unfold Apart Covers
  constructor
  · intro hapart j
    omega
  · intro hnone
    -- the later one of the two lowest bits would belong to both
    have hlow := hnone (max (f.low length) (g.low length))
    omega

/-- Sound tables are those without empty fields that are well formed. -/
theorem wellFormed_iff {h : Header} :
    h.WellFormed ↔ h.Sound ∧ ∀ f ∈ h.fields, 1 ≤ f.width := by
  constructor
  · intro hw
    have hpositive : ∀ f ∈ h.fields, 1 ≤ f.width := fun f hf => (hw.widths f hf).1
    refine ⟨⟨fun f hf => ⟨hw.inside f hf, (hw.widths f hf).2⟩, ?_⟩, hpositive⟩
    refine (hw.names.and hw.disjoint).imp_of_mem ?_
    rintro f g hf hg ⟨hname, hnone⟩
    exact ⟨hname, (Field.apart_iff (hpositive f hf) (hpositive g hg)).mpr hnone⟩
  · rintro ⟨hs, hpositive⟩
    refine ⟨hs.2.imp And.left, fun f hf => ⟨hpositive f hf, (hs.1 f hf).2⟩,
      fun f hf => (hs.1 f hf).1, hs.2.imp_of_mem ?_⟩
    rintro f g hf hg ⟨-, hapart⟩
    exact (Field.apart_iff (hpositive f hf) (hpositive g hg)).mp hapart

variable {h : Header}

theorem WellFormed.sound (hw : h.WellFormed) : h.Sound := (wellFormed_iff.mp hw).1

/-! ## §2. What is written. -/

theorem toNatBE_zeros (n : Nat) : toNatBE (List.replicate n 0) = 0 := by
  induction n with
  | zero => rfl
  | succ n ih => rw [List.replicate_succ, Bytes.toNatBE_cons, ih, UInt8.toNat_zero, Nat.zero_mul]

/-- A bit is set if it belongs to a field in whose value it is set. -/
theorem testBit_encode (hs : h.Sound) (values : Fields) (j : Nat) :
    (toNatBE (h.encode values)).testBit j = true ↔
      ∃ f ∈ h.fields, f.Covers h.length j ∧
        (values.get f.name).testBit (j - f.low h.length) = true := by
  constructor
  · intro hbit
    by_cases hcovered : h.Describes j
    · obtain ⟨f, hf, hin⟩ := hcovered
      rw [testBit_encode_of_mem hs values hf hin] at hbit
      exact ⟨f, hf, hin, hbit⟩
    · have hout : ∀ f ∈ h.fields, ¬ (f.low h.length ≤ j ∧ j < f.low h.length + f.width) :=
        fun f hf hin => hcovered ⟨f, hf, hin⟩
      rw [encode_eq_writeAll,
        testBit_writeAll_of_outside values hs.1 (List.length_replicate ..) hout, toNatBE_zeros,
        Nat.zero_testBit] at hbit
      cases hbit
  · rintro ⟨f, hf, hin, hbit⟩
    rw [testBit_encode_of_mem hs values hf hin, hbit]

/-- Bits of no field are zero. -/
theorem testBit_encode_of_not (hs : h.Sound) (values : Fields) {j : Nat}
    (hout : ¬ h.Describes j) : (toNatBE (h.encode values)).testBit j = false := by
  rw [Bool.eq_false_iff]
  intro hbit
  obtain ⟨f, hf, hin, -⟩ := (testBit_encode hs values j).mp hbit
  exact hout ⟨f, hf, hin⟩

/-- Names of no field are not read. -/
theorem get_decode_of_not {name : String} (hout : ∀ f ∈ h.fields, f.name ≠ name) (bs : Bytes) :
    (h.decode bs).get name = 0 :=
  get_foldl_read_of_notMem bs {} hout

/-! ## §3. The order of the fields. -/

/-- The same fields in another order. -/
theorem Sound.perm {fields : List Field} (hs : h.Sound) (hp : fields.Perm h.fields) :
    (⟨fields, h.length⟩ : Header).Sound := by
  refine ⟨fun f hf => hs.1 f (hp.mem_iff.mp hf), (hp.pairwise_iff ?_).mpr hs.2⟩
  rintro f g ⟨hname, hapart⟩
  exact ⟨Ne.symm hname, hapart.symm⟩

theorem encode_perm {fields : List Field} (hs : h.Sound) (hp : fields.Perm h.fields)
    (values : Fields) : (⟨fields, h.length⟩ : Header).encode values = h.encode values := by
  have hs' := hs.perm hp
  apply Bytes.eq_of_testBit_toNatBE
  · rw [length_encode hs', length_encode hs]
  intro j
  rw [Bool.eq_iff_iff, testBit_encode hs', testBit_encode hs]
  simp only [hp.mem_iff]

theorem decode_perm {fields : List Field} (hs : h.Sound) (hp : fields.Perm h.fields)
    (bs : Bytes) (name : String) :
    ((⟨fields, h.length⟩ : Header).decode bs).get name = (h.decode bs).get name := by
  by_cases hnamed : ∃ f ∈ h.fields, f.name = name
  · obtain ⟨f, hf, rfl⟩ := hnamed
    rw [get_decode (hs.perm hp) (hp.mem_iff.mpr hf), get_decode hs hf]
  · have hout : ∀ f ∈ h.fields, f.name ≠ name := fun f hf heq => hnamed ⟨f, hf, heq⟩
    rw [get_decode_of_not (fun f hf => hout f (hp.mem_iff.mp hf)), get_decode_of_not hout]

/-! ## §4. There and back. -/

/-- Two valuations are written alike exactly if the fields have the same low bits. -/
theorem encode_eq_iff (hs : h.Sound) {values other : Fields} :
    h.encode values = h.encode other ↔
      ∀ f ∈ h.fields, values.get f.name % 2 ^ f.width = other.get f.name % 2 ^ f.width := by
  constructor
  · intro heq f hf
    rw [← read_encode hs values hf, ← read_encode hs other hf, heq]
  · intro hlow
    apply Bytes.eq_of_testBit_toNatBE
    · rw [length_encode hs, length_encode hs]
    intro j
    by_cases hcovered : h.Describes j
    · obtain ⟨f, hf, hin⟩ := hcovered
      have hbits := congrArg (Nat.testBit · (j - f.low h.length)) (hlow f hf)
      have hwidth : j - f.low h.length < f.width := by
        obtain ⟨hlower, hupper⟩ := hin
        omega
      simp only [Nat.testBit_mod_two_pow, hwidth, decide_true, Bool.true_and] at hbits
      rw [testBit_encode_of_mem hs values hf hin, testBit_encode_of_mem hs other hf hin, hbits]
    · rw [testBit_encode_of_not hs values hcovered, testBit_encode_of_not hs other hcovered]

/-- What is read is written back, and nothing else. -/
theorem testBit_encode_decode (hs : h.Sound) {bs : Bytes} (hlen : bs.length = h.length) (j : Nat) :
    (toNatBE (h.encode (h.decode bs))).testBit j =
      (decide (h.Describes j) && (toNatBE bs).testBit j) := by
  by_cases hcovered : h.Describes j
  · obtain ⟨f, hf, hin⟩ := hcovered
    have hwidth : j - f.low h.length < f.width := by
      obtain ⟨hlower, hupper⟩ := hin
      omega
    rw [decide_eq_true (show h.Describes j from ⟨f, hf, hin⟩), Bool.true_and,
      testBit_encode_of_mem hs _ hf hin, get_decode hs hf,
      Field.testBit_read (by rw [hlen]; exact hs.1 f hf), hlen, decide_eq_true hwidth,
      Bool.true_and, Nat.add_sub_cancel' hin.1]
  · rw [testBit_encode_of_not hs _ hcovered, decide_eq_false hcovered, Bool.false_and]

/-! ## §5. The codec. -/

/-- What writing and reading the headers of a table have to do. -/
structure Faithful (h : Header) : Prop where
  length : ∀ values, (h.encode values).length = h.length
  /-- A field holds the low bits of its value, whatever the other values are. -/
  bits : ∀ values, ∀ f ∈ h.fields, ∀ j, f.Covers h.length j →
    (toNatBE (h.encode values)).testBit j = (values.get f.name).testBit (j - f.low h.length)
  /-- Bits of no field are zero. -/
  blank : ∀ values j, ¬ h.Describes j → (toNatBE (h.encode values)).testBit j = false
  /-- Excess bits make no difference, and other names do not either. -/
  low : ∀ values other, h.encode values = h.encode other ↔
    ∀ f ∈ h.fields, values.get f.name % 2 ^ f.width = other.get f.name % 2 ^ f.width
  /-- What was written is read back. -/
  back : ∀ values, ∀ f ∈ h.fields,
    (h.decode (h.encode values)).get f.name = values.get f.name % 2 ^ f.width
  /-- Nothing else is read. -/
  unnamed : ∀ bs name, (∀ f ∈ h.fields, f.name ≠ name) → (h.decode bs).get name = 0
  /-- The order of the fields makes no difference. -/
  order : ∀ fields, fields.Perm h.fields →
    (∀ values, (⟨fields, h.length⟩ : Header).encode values = h.encode values) ∧
    ∀ bs name, ((⟨fields, h.length⟩ : Header).decode bs).get name = (h.decode bs).get name
  /-- What was read is written back, with zeros for all bits of no field. -/
  again : ∀ bs, bs.length = h.length → ∀ j,
    (toNatBE (h.encode (h.decode bs))).testBit j =
      (decide (h.Describes j) && (toNatBE bs).testBit j)

/-- The values fit their fields, and are of nothing else. -/
structure Suits (h : Header) (values : Fields) : Prop where
  fits : ∀ f ∈ h.fields, values.get f.name < 2 ^ f.width
  unnamed : ∀ name, (∀ f ∈ h.fields, f.name ≠ name) → values.get name = 0

/-- Writing and reading undo each other. -/
structure Inverse (h : Header) : Prop where
  values : ∀ values, h.Suits values → ∀ name, (h.decode (h.encode values)).get name = values.get name
  octets : ∀ bs, bs.length = h.length → h.Suits (h.decode bs) ∧ h.encode (h.decode bs) = bs

theorem Sound.faithful (hs : h.Sound) : h.Faithful where
  length := length_encode hs
  bits values _ hf _ hin := testBit_encode_of_mem hs values hf hin
  blank values _ hout := testBit_encode_of_not hs values hout
  low _ _ := encode_eq_iff hs
  back values _ hf := get_decode_encode hs values hf
  unnamed bs _ hout := get_decode_of_not hout bs
  order _ hp := ⟨encode_perm hs hp, decode_perm hs hp⟩
  again _ hlen j := testBit_encode_decode hs hlen j

/-- What is read suits the table. -/
theorem suits_decode (hs : h.Sound) (bs : Bytes) : h.Suits (h.decode bs) := by
  refine ⟨fun f hf => ?_, fun name hout => get_decode_of_not hout bs⟩
  rw [get_decode hs hf, Field.read]
  exact Nat.lt_of_le_of_lt (Nat.mod_le ..) (Nat.mod_lt _ (Nat.two_pow_pos _))

/-- Without gaps between the fields writing and reading are inverse. -/
theorem inverse_of_covered (hs : h.Sound) (hc : h.Covered) : h.Inverse where
  values values hsuits name := by
    by_cases hnamed : ∃ f ∈ h.fields, f.name = name
    · obtain ⟨f, hf, rfl⟩ := hnamed
      exact get_decode_encode_of_lt hs hf rfl (hsuits.fits f hf)
    · have hout : ∀ f ∈ h.fields, f.name ≠ name := fun f hf heq => hnamed ⟨f, hf, heq⟩
      rw [get_decode_of_not hout, hsuits.unnamed name hout]
  octets bs hlen := ⟨suits_decode hs bs, encode_decode hs hc hlen⟩

/-- The tables of the protocols. -/
def protocols : List Header :=
  [Ethernet.header, Arp.header, Ip.header, Icmp.header, Udp.header]

theorem protocols_sound : ∀ h ∈ protocols, h.Sound := by
  simp only [protocols, List.forall_mem_cons, List.not_mem_nil, false_implies, implies_true,
    and_true]
  exact ⟨Ethernet.header_sound, Arp.header_sound, Ip.header_sound, Icmp.header_sound,
    Udp.header_sound⟩

theorem protocols_covered : ∀ h ∈ protocols, h.Covered := by
  simp only [protocols, List.forall_mem_cons, List.not_mem_nil, false_implies, implies_true,
    and_true]
  exact ⟨Ethernet.header_covered, by decide +kernel, by decide +kernel, Icmp.header_covered,
    by decide +kernel⟩

/-- **The codec is a bijection on the bits that a table describes.**

Let a table be well formed.  Then a written header has the octets of the table,
each field in it the low bits of its value and every other bit zero; two
valuations are written alike exactly if the low bits of all fields agree; the
fields are read back cut to their widths, and nothing else is; the order of the
fields makes no difference; and octets that are read and written again keep the
bits of the fields and lose all others.

The tables of the protocols are well formed and have no gaps, so that of them
writing and reading undo each other. -/
theorem codec_bijective :
    (∀ h : Header, h.WellFormed → h.Faithful) ∧
    ∀ h ∈ [Ethernet.header, Arp.header, Ip.header, Icmp.header, Udp.header],
      h.WellFormed ∧ h.Inverse := by
  refine ⟨fun h hw => hw.sound.faithful, fun h hh => ?_⟩
  have hpositive : ∀ h ∈ protocols, ∀ f ∈ h.fields, 1 ≤ f.width := by decide
  exact ⟨wellFormed_iff.mpr ⟨protocols_sound h hh, hpositive h hh⟩,
    inverse_of_covered (protocols_sound h hh) (protocols_covered h hh)⟩

/-- Three fields of which each two share an octet, and one holds more than fits. -/
theorem codec_bijective_windows :
    let h : Header := ⟨[⟨"a", 0, 3, 9⟩, ⟨"b", 0, 12, 3⟩, ⟨"c", 1, 1, 10⟩], 3⟩
    let values := (({} : Fields).set "a" (2 ^ 64 - 1)).set "c" 5
    h.WellFormed ∧ h.Faithful ∧ h.encode values = [0x0f, 0xf8, 0x0a] := by
  intro h values
  have hw : h.WellFormed := wellFormed_iff.mpr (by decide)
  exact ⟨hw, codec_bijective.1 h hw, by decide +kernel⟩

end NetBoard.Header
