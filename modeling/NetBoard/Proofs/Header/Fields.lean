/-
  NetBoard.Proofs.Header.Fields
  ─────────────────────────────
  **READING AND WRITING BIT FIELDS.**

  The octets of a header are taken as one big-endian number.  A field is then
  an interval of its bits: reading cuts the interval out, writing replaces it
  and keeps every other bit.  A table of fields is sound if its intervals lie
  within the header, have at most 64 bits, and are pairwise apart; of a sound
  table every written value is read back, cut to the width of its field.

  Main statements:

      Field.testBit_read    — reading cuts the interval out
      Field.testBit_write   — writing changes the interval only
      get_decode_encode     — a written value is read back
      encode_decode         — without gaps, what is read is written back
      encode_set            — setting a value writes one field
      encode_inRow          — fields of whole octets stand one behind the other
-/
import NetBoard.Header.Basic

namespace NetBoard

open scoped Power

/-! ## §1. Octets as a number. -/

namespace Bytes

/-- The bits of the later octets are the low ones. -/
theorem testBit_toNatBE_append (xs ys : Bytes) (i : Nat) :
    (toNatBE (xs ++ ys)).testBit i =
      if i < 8 * ys.length then (toNatBE ys).testBit i
      else (toNatBE xs).testBit (i - 8 * ys.length) := by
  have hlt : toNatBE ys < 2 ^ (8 * ys.length) := by
    have h := toNatBE_lt ys
    rwa [show (256 : Nat) = 2 ^ 8 from rfl, ← Nat.pow_mul] at h
  rw [toNatBE_append, show (256 : Nat) = 2 ^ 8 from rfl, ← Nat.pow_mul, Nat.mul_comm]
  exact Nat.testBit_two_pow_mul_add _ hlt i

/-- Octet strings of one length are equal if their bits are. -/
theorem eq_of_testBit_toNatBE {xs ys : Bytes} (hlen : xs.length = ys.length)
    (h : ∀ i, (toNatBE xs).testBit i = (toNatBE ys).testBit i) : xs = ys := by
  have hval : toNatBE xs = toNatBE ys := Nat.eq_of_testBit_eq h
  rw [← ofNatBE_toNatBE xs, ← ofNatBE_toNatBE ys, hlen, hval]

/-- No bit is set beyond the octets. -/
theorem testBit_toNatBE_of_le {bs : Bytes} {i : Nat} (h : 8 * bs.length ≤ i) :
    (toNatBE bs).testBit i = false := by
  have hlt := toNatBE_lt bs
  rw [show (256 : Nat) = 2 ^ 8 from rfl, ← Nat.pow_mul] at hlt
  exact Nat.testBit_lt_two_pow (Nat.lt_of_lt_of_le hlt (Nat.pow_le_pow_right (by decide) h))

/-- The bits of a part of the octets. -/
theorem testBit_toNatBE_slice {bs : Bytes} {start n : Nat} (h : start + n ≤ bs.length) (i : Nat) :
    (toNatBE ((bs.drop start).take n)).testBit i =
      (decide (i < 8 * n) && (toNatBE bs).testBit (8 * (bs.length - start - n) + i)) := by
  have hcut : bs = bs.take start ++ ((bs.drop start).take n ++ bs.drop (start + n)) := by
    rw [← List.drop_drop, List.take_append_drop, List.take_append_drop]
  have hn : ((bs.drop start).take n).length = n := by
    rw [List.length_take, List.length_drop]
    omega
  have htail : (bs.drop (start + n)).length = bs.length - start - n := by
    rw [List.length_drop]
    omega
  by_cases hi : i < 8 * n
  · have hlow : ¬ 8 * (bs.length - start - n) + i < 8 * (bs.length - start - n) := by omega
    have hmid : 8 * (bs.length - start - n) + i < 8 * (n + (bs.length - start - n)) := by omega
    have hbs := congrArg (fun zs => (toNatBE zs).testBit (8 * (bs.length - start - n) + i)) hcut
    rw [hbs, testBit_toNatBE_append, List.length_append, hn, htail, if_pos hmid,
      testBit_toNatBE_append, htail, if_neg hlow]
    simp [hi]
  · rw [testBit_toNatBE_of_le (by rw [hn]; omega)]
    simp [hi]

end Bytes

/-! ## §2. One field. -/

namespace Header.Field

open Bytes (toNatBE)

/-- The field lies in the first `length` octets and is not cut by a read. -/
def Fits (f : Field) (length : Nat) : Prop :=
  f.byte + f.span ≤ length ∧ f.width ≤ 64 ∧ f.offset + f.width ≤ 128

instance (f : Field) (length : Nat) : Decidable (f.Fits length) :=
  inferInstanceAs (Decidable (_ ∧ _ ∧ _))

/-- The lowest bit of the field in the number of `length` octets. -/
def low (f : Field) (length : Nat) : Nat := 8 * (length - f.byte - f.span) + f.offset

/-- No bit belongs to both fields. -/
def Apart (f g : Field) (length : Nat) : Prop :=
  f.low length + f.width ≤ g.low length ∨ g.low length + g.width ≤ f.low length

instance (f g : Field) (length : Nat) : Decidable (f.Apart g length) :=
  inferInstanceAs (Decidable (_ ∨ _))

/-- The octets a field touches hold all its bits. -/
theorem width_le_span (f : Field) : f.offset + f.width ≤ 8 * f.span := by
  unfold span
  omega

variable {f : Field} {bs : Bytes}

/-- Within the octets the region is the number of a part of them. -/
theorem region_eq (h : f.Fits bs.length) :
    f.region bs = toNatBE ((bs.drop f.byte).take f.span) := by
  obtain ⟨hspan, -, hwidth⟩ := h
  have hlist : (bs.drop f.byte).take f.span =
      (List.range f.span).map (fun i => bs.getD (f.byte + i) 0) := by
    apply List.ext_getElem
    · simp only [List.length_take, List.length_drop, List.length_map, List.length_range]
      omega
    · intro i h₁ h₂
      have hi : f.byte + i < bs.length := by
        rw [List.length_map, List.length_range] at h₂
        omega
      simp [List.getD_eq_getElem?_getD, List.getElem?_eq_getElem hi]
  -- a field touches so few octets that the accumulator never wraps
  have hlt : toNatBE ((bs.drop f.byte).take f.span) < 2 ^ 128 := by
    have hlen : ((bs.drop f.byte).take f.span).length ≤ 16 := by
      rw [List.length_take]
      unfold span
      omega
    calc toNatBE ((bs.drop f.byte).take f.span)
        < 256 ^ ((bs.drop f.byte).take f.span).length := Bytes.toNatBE_lt _
      _ ≤ 256 ^ 16 := Nat.pow_le_pow_right (by decide) hlen
      _ = 2 ^ 128 := by decide
  rw [hlist] at hlt ⊢
  unfold region
  rw [Bytes.toNatBE, List.foldl_map] at hlt ⊢
  exact Nat.mod_eq_of_lt hlt

theorem testBit_region (h : f.Fits bs.length) (i : Nat) :
    (f.region bs).testBit i =
      (decide (i < 8 * f.span) &&
        (toNatBE bs).testBit (8 * (bs.length - f.byte - f.span) + i)) := by
  rw [region_eq h, Bytes.testBit_toNatBE_slice h.1]

/-- Reading cuts the bits of the field out. -/
theorem testBit_read (h : f.Fits bs.length) (i : Nat) :
    (f.read bs).testBit i =
      (decide (i < f.width) && (toNatBE bs).testBit (f.low bs.length + i)) := by
  have hspan := f.width_le_span
  have hwidth := h.2.1
  unfold read low
  rw [Nat.testBit_mod_two_pow, Nat.testBit_mod_two_pow, Nat.testBit_shiftRight, testBit_region h,
    Nat.add_assoc]
  by_cases hi : i < f.width
  · simp [hi, show i < 64 by omega, show f.offset + i < 8 * f.span by omega]
  · simp [hi]

@[simp] theorem length_write (h : f.byte + f.span ≤ bs.length) (v : Nat) :
    (f.write v bs).length = bs.length := by
  unfold write
  simp only [List.length_append, List.length_take, List.length_drop, Bytes.length_ofNatBE]
  omega

/-- The number put in the place of the region: the field's bits are those of `v`. -/
theorem testBit_blend (f : Field) (region v i : Nat) :
    ((region ^^^ (region &&& f.mask)) ||| ((v <<< f.offset) &&& f.mask)).testBit i =
      if f.offset ≤ i ∧ i < f.offset + f.width then v.testBit (i - f.offset)
      else region.testBit i := by
  unfold mask
  rw [Nat.testBit_or, Nat.testBit_xor, Nat.testBit_and, Nat.testBit_and, Nat.testBit_shiftLeft,
    Nat.testBit_shiftLeft, Nat.testBit_two_pow_sub_one]
  by_cases hlow : f.offset ≤ i
  · by_cases hhigh : i < f.offset + f.width
    · simp [hlow, hhigh, show i - f.offset < f.width by omega]
    · simp [hlow, hhigh, show ¬ i - f.offset < f.width by omega]
  · simp [hlow]

/-- Writing replaces the bits of the field and keeps all others. -/
theorem testBit_write (h : f.Fits bs.length) (v j : Nat) :
    (toNatBE (f.write v bs)).testBit j =
      if f.low bs.length ≤ j ∧ j < f.low bs.length + f.width then v.testBit (j - f.low bs.length)
      else (toNatBE bs).testBit j := by
  have hspan := f.width_le_span
  have hcut : bs = bs.take f.byte ++ ((bs.drop f.byte).take f.span ++ bs.drop (f.byte + f.span)) := by
    rw [← List.drop_drop, List.take_append_drop, List.take_append_drop]
  have hmid : ((bs.drop f.byte).take f.span).length = f.span := by
    rw [List.length_take, List.length_drop]
    have := h.1
    omega
  have htail : (bs.drop (f.byte + f.span)).length = bs.length - f.byte - f.span := by
    rw [List.length_drop]
    omega
  -- the bits of `bs`, taken apart in the same three pieces
  have hbs : (toNatBE bs).testBit j =
      if j < 8 * (f.span + (bs.length - f.byte - f.span)) then
        if j < 8 * (bs.length - f.byte - f.span) then
          (toNatBE (bs.drop (f.byte + f.span))).testBit j
        else (f.region bs).testBit (j - 8 * (bs.length - f.byte - f.span))
      else (toNatBE (bs.take f.byte)).testBit
        (j - 8 * (f.span + (bs.length - f.byte - f.span))) := by
    rw [region_eq h]
    have heq := congrArg (fun zs => (toNatBE zs).testBit j) hcut
    rw [heq, Bytes.testBit_toNatBE_append, List.length_append, hmid, htail,
      Bytes.testBit_toNatBE_append, htail]
  unfold write low
  rw [hbs, List.append_assoc, Bytes.testBit_toNatBE_append, List.length_append,
    Bytes.length_ofNatBE, htail, Bytes.testBit_toNatBE_append, htail, Bytes.toNatBE_ofNatBE,
    show (256 : Nat) = 2 ^ 8 from rfl, ← Nat.pow_mul, Nat.testBit_mod_two_pow, testBit_blend]
  generalize bs.length - f.byte - f.span = rest
  by_cases hhead : j < 8 * (f.span + rest)
  · by_cases hlow : j < 8 * rest
    · have hout : ¬ (8 * rest + f.offset ≤ j ∧ j < 8 * rest + f.offset + f.width) := by omega
      rw [if_pos hhead, if_pos hlow, if_neg hout, if_pos hhead, if_pos hlow]
    · have hin : j - 8 * rest < 8 * f.span := by omega
      have hiff : (f.offset ≤ j - 8 * rest ∧ j - 8 * rest < f.offset + f.width) ↔
          (8 * rest + f.offset ≤ j ∧ j < 8 * rest + f.offset + f.width) := by omega
      rw [if_pos hhead, if_neg hlow, if_pos hhead, if_neg hlow]
      simp only [hin, decide_true, Bool.true_and, hiff]
      rw [Nat.sub_sub]
  · have hout : ¬ (8 * rest + f.offset ≤ j ∧ j < 8 * rest + f.offset + f.width) := by omega
    rw [if_neg hhead, if_neg hout, if_neg hhead]

/-- A field that fills its octets is written as a number of that many octets. -/
theorem write_whole (hoffset : f.offset = 0)
    (hwidth : f.width = 8 * f.span) (v : Nat) :
    f.write v bs = bs.take f.byte ++ Bytes.ofNatBE f.span v ++ bs.drop (f.byte + f.span) := by
  unfold write
  dsimp only
  congr 2
  rw [← Bytes.ofNatBE_mod, ← Bytes.ofNatBE_mod f.span v]
  congr 1
  rw [show (256 : Nat) = 2 ^ 8 from rfl, ← Nat.pow_mul]
  apply Nat.eq_of_testBit_eq
  intro i
  rw [Nat.testBit_mod_two_pow, Nat.testBit_mod_two_pow, testBit_blend, hoffset, hwidth]
  by_cases hi : i < 8 * f.span
  · simp [hi]
  · simp [hi]

/-- A field that fills its octets is read as their number. -/
theorem read_whole (h : f.Fits bs.length) (hoffset : f.offset = 0)
    (hwidth : f.width = 8 * f.span) :
    f.read bs = toNatBE ((bs.drop f.byte).take f.span) := by
  have hlt : toNatBE ((bs.drop f.byte).take f.span) < 2 ^ (8 * f.span) := by
    have hlen : ((bs.drop f.byte).take f.span).length ≤ f.span := List.length_take_le ..
    calc toNatBE ((bs.drop f.byte).take f.span)
        < 256 ^ ((bs.drop f.byte).take f.span).length := Bytes.toNatBE_lt _
      _ ≤ 256 ^ f.span := Nat.pow_le_pow_right (by decide) hlen
      _ = 2 ^ (8 * f.span) := by rw [show (256 : Nat) = 2 ^ 8 from rfl, ← Nat.pow_mul]
  have hle : 2 ^ (8 * f.span) ≤ 2 ^ 64 :=
    Nat.pow_le_pow_right (by decide) (by have := h.2.1; omega)
  unfold read
  rw [region_eq h, hoffset, hwidth, Nat.shiftRight_zero, Nat.mod_eq_of_lt hlt,
    Nat.mod_eq_of_lt (Nat.lt_of_lt_of_le hlt hle)]

end Header.Field

/-! ## §3. Tables of fields. -/

namespace Header

/-- The fields have different names, lie within the header and share no bit. -/
def Sound (h : Header) : Prop :=
  (∀ f ∈ h.fields, f.Fits h.length) ∧
    h.fields.Pairwise (fun f g => f.name ≠ g.name ∧ f.Apart g h.length)

instance (h : Header) : Decidable h.Sound := inferInstanceAs (Decidable (_ ∧ _))

/-- The name tells the field. -/
theorem Sound.eq_of_name_eq {h : Header} (hs : h.Sound) {f g : Field} (hf : f ∈ h.fields)
    (hg : g ∈ h.fields) (hname : f.name = g.name) : f = g := by
  have hpair : h.fields.Pairwise (fun f g => f.name = g.name → f = g) :=
    hs.2.imp (fun hfg heq => absurd heq hfg.1)
  have hflip : h.fields.Pairwise (flip (fun f g => f.name = g.name → f = g)) :=
    hs.2.imp (fun hfg heq => absurd heq.symm hfg.1)
  exact hpair.forall_of_forall_of_flip (fun _ _ _ => rfl) hflip hf hg hname

/-- Write every field of a list, in order. -/
def writeAll (values : Fields) (fields : List Field) (bs : Bytes) : Bytes :=
  fields.foldl (fun bs f => f.write (values.get f.name) bs) bs

theorem encode_eq_writeAll (h : Header) (values : Fields) :
    h.encode values = writeAll values h.fields (List.replicate h.length 0) := rfl

theorem writeAll_cons (values : Fields) (f : Field) (fields : List Field) (bs : Bytes) :
    writeAll values (f :: fields) bs = writeAll values fields (f.write (values.get f.name) bs) :=
  rfl

theorem length_writeAll {fields : List Field} {length : Nat} (values : Fields) {bs : Bytes}
    (hspan : ∀ f ∈ fields, f.byte + f.span ≤ length) (hlen : bs.length = length) :
    (writeAll values fields bs).length = length := by
  induction fields generalizing bs with
  | nil => exact hlen
  | cons f fields ih =>
    have hf := hspan f (List.mem_cons_self ..)
    rw [writeAll_cons]
    apply ih
    · intro g hg
      exact hspan g (List.mem_cons_of_mem _ hg)
    · rw [Field.length_write (by rw [hlen]; exact hf), hlen]

/-- Bits of no written field are kept. -/
theorem testBit_writeAll_of_outside {fields : List Field} {length : Nat} (values : Fields)
    {bs : Bytes} (hfits : ∀ f ∈ fields, f.Fits length) (hlen : bs.length = length) {j : Nat}
    (hout : ∀ f ∈ fields, ¬ (f.low length ≤ j ∧ j < f.low length + f.width)) :
    (Bytes.toNatBE (writeAll values fields bs)).testBit j = (Bytes.toNatBE bs).testBit j := by
  induction fields generalizing bs with
  | nil => rfl
  | cons f fields ih =>
    have hf := hfits f (List.mem_cons_self ..)
    rw [writeAll_cons, ih (fun g hg => hfits g (List.mem_cons_of_mem _ hg))
      (by rw [Field.length_write (by rw [hlen]; exact hf.1), hlen])
      (fun g hg => hout g (List.mem_cons_of_mem _ hg)),
      Field.testBit_write (by rw [hlen]; exact hf), hlen,
      if_neg (hout f (List.mem_cons_self ..))]

/-- Bits of a written field are those of its value. -/
theorem testBit_writeAll_of_mem {fields : List Field} {length : Nat} (values : Fields)
    {bs : Bytes} (hfits : ∀ f ∈ fields, f.Fits length)
    (hapart : fields.Pairwise (fun f g => f.name ≠ g.name ∧ f.Apart g length))
    (hlen : bs.length = length) {f : Field} (hf : f ∈ fields) {j : Nat}
    (hin : f.low length ≤ j ∧ j < f.low length + f.width) :
    (Bytes.toNatBE (writeAll values fields bs)).testBit j =
      (values.get f.name).testBit (j - f.low length) := by
  induction fields generalizing bs with
  | nil => cases hf
  | cons g fields ih =>
    have hg := hfits g (List.mem_cons_self ..)
    have hlen' : (g.write (values.get g.name) bs).length = length := by
      rw [Field.length_write (by rw [hlen]; exact hg.1), hlen]
    have htail : ∀ f ∈ fields, f.Fits length := fun f hf => hfits f (List.mem_cons_of_mem _ hf)
    rw [List.pairwise_cons] at hapart
    rw [writeAll_cons]
    rcases List.mem_cons.mp hf with rfl | hmem
    · -- the later fields keep what is written first
      rw [testBit_writeAll_of_outside values htail hlen', Field.testBit_write (by rw [hlen]; exact hg),
        hlen, if_pos hin]
      intro k hk
      have := (hapart.1 k hk).2
      unfold Field.Apart at this
      omega
    · exact ih htail hapart.2 hlen' hmem

variable {h : Header}

/-- The fields lie within the octets of the header. -/
def Encloses (h : Header) : Prop := ∀ f ∈ h.fields, f.byte + f.span ≤ h.length

instance (h : Header) : Decidable h.Encloses :=
  inferInstanceAs (Decidable (∀ f ∈ h.fields, f.byte + f.span ≤ h.length))

theorem Encloses.length_encode (he : h.Encloses) (values : Fields) :
    (h.encode values).length = h.length :=
  length_writeAll values he (List.length_replicate ..)

@[simp] theorem length_encode (hs : h.Sound) (values : Fields) :
    (h.encode values).length = h.length :=
  Encloses.length_encode (fun f hf => (hs.1 f hf).1) values

/-- The bits of an encoded header. -/
theorem testBit_encode_of_mem (hs : h.Sound) (values : Fields) {f : Field} (hf : f ∈ h.fields)
    {j : Nat} (hin : f.low h.length ≤ j ∧ j < f.low h.length + f.width) :
    (Bytes.toNatBE (h.encode values)).testBit j =
      (values.get f.name).testBit (j - f.low h.length) :=
  testBit_writeAll_of_mem values hs.1 hs.2 (List.length_replicate ..) hf hin

/-- Written and read, a field holds the low bits of its value. -/
theorem read_encode (hs : h.Sound) (values : Fields) {f : Field} (hf : f ∈ h.fields) :
    f.read (h.encode values) = values.get f.name % 2 ^ f.width := by
  have hfits : f.Fits (h.encode values).length := by
    rw [length_encode hs]
    exact hs.1 f hf
  apply Nat.eq_of_testBit_eq
  intro i
  rw [Field.testBit_read hfits, length_encode hs, Nat.testBit_mod_two_pow]
  by_cases hi : i < f.width
  · rw [testBit_encode_of_mem hs values hf ⟨by omega, by omega⟩, Nat.add_sub_cancel_left]
  · simp [hi]

/-- Reading a list of fields leaves the values of other names alone. -/
theorem get_foldl_read_of_notMem {fields : List Field} {name : String} (bs : Bytes)
    (values : Fields) (hout : ∀ f ∈ fields, f.name ≠ name) :
    (fields.foldl (fun values f => values.set f.name (f.read bs)) values).get name =
      values.get name := by
  induction fields generalizing values with
  | nil => rfl
  | cons f fields ih =>
    rw [List.foldl_cons, ih _ (fun g hg => hout g (List.mem_cons_of_mem _ hg))]
    exact Fields.get_set_of_ne _ _ (hout f (List.mem_cons_self ..)).symm

theorem get_foldl_read_of_mem {fields : List Field} {f : Field} (bs : Bytes) (values : Fields)
    (hnames : fields.Pairwise (fun f g => f.name ≠ g.name)) (hf : f ∈ fields) :
    (fields.foldl (fun values f => values.set f.name (f.read bs)) values).get f.name =
      f.read bs := by
  induction fields generalizing values with
  | nil => cases hf
  | cons g fields ih =>
    rw [List.pairwise_cons] at hnames
    rw [List.foldl_cons]
    rcases List.mem_cons.mp hf with rfl | hmem
    · rw [get_foldl_read_of_notMem _ _ (fun k hk => (hnames.1 k hk).symm)]
      exact Fields.get_set_self _ _ _
    · exact ih _ hnames.2 hmem

/-- A decoded field is what is read of it. -/
theorem get_decode (hs : h.Sound) {f : Field} (hf : f ∈ h.fields) (bs : Bytes) :
    (h.decode bs).get f.name = f.read bs :=
  get_foldl_read_of_mem bs {} (hs.2.imp (fun hfg => hfg.1)) hf

/-- A written value is read back, cut to the width of its field. -/
theorem get_decode_encode (hs : h.Sound) (values : Fields) {f : Field} (hf : f ∈ h.fields) :
    (h.decode (h.encode values)).get f.name = values.get f.name % 2 ^ f.width := by
  rw [get_decode hs hf, read_encode hs values hf]

/-- A value that fits its field is read back. -/
theorem get_decode_encode_of_lt (hs : h.Sound) {values : Fields} {f : Field} (hf : f ∈ h.fields)
    {v : Nat} (hget : values.get f.name = v) (hv : v < 2 ^ f.width) :
    (h.decode (h.encode values)).get f.name = v := by
  rw [get_decode_encode hs values hf, hget, Nat.mod_eq_of_lt hv]

/-- Setting one more value writes one field. -/
theorem encode_set (hs : h.Sound) (values : Fields) {f : Field} (hf : f ∈ h.fields) (v : Nat) :
    h.encode (values.set f.name v) = f.write v (h.encode values) := by
  have hfits : f.Fits (h.encode values).length := by
    rw [length_encode hs]
    exact hs.1 f hf
  apply Bytes.eq_of_testBit_toNatBE
  · rw [Field.length_write hfits.1, length_encode hs, length_encode hs]
  intro j
  rw [Field.testBit_write hfits, length_encode hs]
  by_cases hin : f.low h.length ≤ j ∧ j < f.low h.length + f.width
  · rw [if_pos hin, testBit_encode_of_mem hs _ hf hin, Fields.get_set_self]
  · rw [if_neg hin]
    by_cases hother : ∃ g ∈ h.fields, g.low h.length ≤ j ∧ j < g.low h.length + g.width
    · obtain ⟨g, hg, hgin⟩ := hother
      have hne : g.name ≠ f.name := by
        intro heq
        exact hin (hs.eq_of_name_eq hg hf heq ▸ hgin)
      rw [testBit_encode_of_mem hs _ hg hgin, testBit_encode_of_mem hs _ hg hgin,
        Fields.get_set_of_ne _ _ hne]
    · have hout : ∀ g ∈ h.fields, ¬ (g.low h.length ≤ j ∧ j < g.low h.length + g.width) :=
        fun g hg hgin => hother ⟨g, hg, hgin⟩
      rw [encode_eq_writeAll, encode_eq_writeAll,
        testBit_writeAll_of_outside _ hs.1 (List.length_replicate ..) hout,
        testBit_writeAll_of_outside _ hs.1 (List.length_replicate ..) hout]

/-- Every bit of the header belongs to a field. -/
def Covered (h : Header) : Prop :=
  ∀ j < 8 * h.length, ∃ f ∈ h.fields, f.low h.length ≤ j ∧ j < f.low h.length + f.width

instance (h : Header) : Decidable h.Covered :=
  inferInstanceAs (Decidable (∀ j < 8 * h.length, ∃ f ∈ h.fields, _))

/-- Read and written, the octets of a header without gaps are the same. -/
theorem encode_decode (hs : h.Sound) (hc : h.Covered) {bs : Bytes} (hlen : bs.length = h.length) :
    h.encode (h.decode bs) = bs := by
  apply Bytes.eq_of_testBit_toNatBE
  · rw [length_encode hs, hlen]
  intro j
  by_cases hj : j < 8 * h.length
  · obtain ⟨f, hf, hlow, hhigh⟩ := hc j hj
    have hin : j - f.low h.length < f.width := by omega
    rw [testBit_encode_of_mem hs _ hf ⟨hlow, hhigh⟩, get_decode hs hf,
      Field.testBit_read (by rw [hlen]; exact hs.1 f hf), hlen, decide_eq_true hin,
      Bool.true_and, Nat.add_sub_cancel' hlow]
  · rw [Bytes.testBit_toNatBE_of_le (by rw [length_encode hs]; omega),
      Bytes.testBit_toNatBE_of_le (by rw [hlen]; omega)]

/-! ## §4. Fields of whole octets. -/

/-- The fields fill their octets, and stand one behind the other from octet `start` to `stop`. -/
def InRow (start : Nat) : List Field → Nat → Prop
  | [], stop => start = stop
  | f :: fields, stop =>
    (f.byte = start ∧ f.offset = 0 ∧ f.width = 8 * f.span) ∧ InRow (start + f.span) fields stop

instance decidableInRow (start : Nat) (fields : List Field) (stop : Nat) :
    Decidable (InRow start fields stop) :=
  match fields with
  | [] => inferInstanceAs (Decidable (start = stop))
  | f :: fields =>
    have := decidableInRow (start + f.span) fields stop
    inferInstanceAs (Decidable ((_ ∧ _ ∧ _) ∧ InRow (start + f.span) fields stop))

theorem InRow.le {start stop : Nat} {fields : List Field} (h : InRow start fields stop) :
    start ≤ stop := by
  induction fields generalizing start with
  | nil => exact Nat.le_of_eq h
  | cons f fields ih => exact Nat.le_trans (Nat.le_add_right ..) (ih h.2)

/-- Fields in a row are written one behind the other. -/
theorem InRow.writeAll {start stop : Nat} {fields : List Field} (h : InRow start fields stop)
    (values : Fields) {done zeros : Bytes} (hdone : done.length = start)
    (hzeros : start + zeros.length = stop) :
    writeAll values fields (done ++ zeros) =
      done ++ fields.flatMap fun f => Bytes.ofNatBE f.span (values.get f.name) := by
  induction fields generalizing start done zeros with
  | nil =>
    have hnone : zeros = [] := by
      apply List.eq_nil_of_length_eq_zero
      have hstop : start = stop := h
      omega
    rw [hnone]
    rfl
  | cons f fields ih =>
    obtain ⟨⟨hbyte, hoffset, hwidth⟩, hrest⟩ := h
    have hle := hrest.le
    have hwritten : f.write (values.get f.name) (done ++ zeros) =
        (done ++ Bytes.ofNatBE f.span (values.get f.name)) ++ zeros.drop f.span := by
      rw [Field.write_whole hoffset hwidth, hbyte, ← hdone, List.take_left, List.drop_append]
      simp
    have hlen : (done ++ Bytes.ofNatBE f.span (values.get f.name)).length = start + f.span := by
      rw [List.length_append, hdone, Bytes.length_ofNatBE]
    rw [writeAll_cons, hwritten, ih hrest hlen (by rw [List.length_drop]; omega),
      List.flatMap_cons, List.append_assoc]

/-- A header whose fields stand in a row is their octets one behind the other. -/
theorem encode_inRow {h : Header} (hrow : InRow 0 h.fields h.length) (values : Fields) :
    h.encode values = h.fields.flatMap fun f => Bytes.ofNatBE f.span (values.get f.name) := by
  have hzeros : 0 + (List.replicate h.length (0 : UInt8)).length = h.length := by simp
  exact hrow.writeAll values (List.length_nil) hzeros

end Header
end NetBoard
