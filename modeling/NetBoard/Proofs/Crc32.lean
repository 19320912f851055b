/-
  NetBoard.Proofs.Crc32
  ─────────────────────
  **A FRAME AND ITS CHECK SEQUENCE.**

  Shifting the register is linear and loses nothing.  Octets enter it bit by
  bit, from their least significant bit on, so feeding up to 32 bits is shifting
  the register after the number they make up has been added to it.  The four
  octets behind a frame therefore leave the residue if and only if they are the
  complement of the register the frame has left.

  Main definitions:

      Bytes.bits  — the bits of octets, in the order they are fed
      number      — the number that bits make up, the first one lowest

  Main statements:

      foldl_bit_few       — feeding a few bits is adding their number and shifting
      tableStep_eq_octet  — the table does what the bits do
      foldl_octet         — feeding a few octets is adding a number and shifting
      valid_iff           — the valid frames are those with their check sequence
      take_append         — without the sequence it is the frame again
-/
import Mathlib.Data.Nat.Bitwise
import Mathlib.Logic.Function.Iterate
import NetBoard.Crc32
import NetBoard.Proofs.Beat.Octets

namespace NetBoard

open scoped Power

/-! ## §1. Octets as bits. -/

namespace Bytes

/-- The bits of an octet, the least significant one first. -/
def octetBits (o : UInt8) : List Bool := (List.range 8).map o.toNat.testBit

/-- The bits of octets, octet by octet. -/
def bits (bs : Bytes) : List Bool := bs.flatMap octetBits

@[simp] theorem bits_nil : bits [] = [] := rfl

@[simp] theorem bits_cons (o : UInt8) (bs : Bytes) : bits (o :: bs) = octetBits o ++ bits bs := rfl

@[simp] theorem length_octetBits (o : UInt8) : (octetBits o).length = 8 := rfl

@[simp] theorem length_bits (bs : Bytes) : (bits bs).length = 8 * bs.length := by
  induction bs with
  | nil => rfl
  | cons o bs ih =>
    rw [bits_cons, List.length_append, length_octetBits, ih, List.length_cons]
    omega

end Bytes

namespace Crc32

open Bytes (bits octetBits)

/-! ## §2. Shifting the register. -/

/-- The register as a number is halved, and the generator added if a one fell out. -/
theorem toNat_shift (r : UInt32) :
    (shift r).toNat = r.toNat / 2 ^^^ (if r.toNat % 2 = 1 then polynomial.toNat else 0) := by
  have hlow : r &&& 1 = 1 ↔ r.toNat % 2 = 1 := by
    rw [← UInt32.toNat_inj, UInt32.toNat_and]
    exact iff_of_eq (congrArg (· = 1) (Nat.and_one_is_mod r.toNat))
  have hdown : (r >>> 1).toNat = r.toNat / 2 := by
    rw [UInt32.toNat_shiftRight]
    exact Nat.shiftRight_eq_div_pow r.toNat 1
  unfold shift
  by_cases hodd : r.toNat % 2 = 1
  · rw [if_pos (hlow.2 hodd), if_pos hodd, UInt32.toNat_xor, hdown]
  · rw [if_neg (fun h => hodd (hlow.1 h)), if_neg hodd, hdown, Nat.xor_zero]

/-- Shifting is linear. -/
theorem shift_xor (a b : UInt32) : shift (a ^^^ b) = shift a ^^^ shift b := by
  apply UInt32.toNat_inj.1
  have ha := Nat.mod_two_eq_zero_or_one a.toNat
  have hb := Nat.mod_two_eq_zero_or_one b.toNat
  have hparity : (a.toNat ^^^ b.toNat) % 2 = (a.toNat + b.toNat) % 2 := Nat.xor_mod_two_eq
  simp only [toNat_shift, UInt32.toNat_xor, Nat.xor_div_two, hparity]
  generalize polynomial.toNat = p
  -- the generator is added on the right as often as on the left, or twice more
  rcases ha with ha | ha <;> rcases hb with hb | hb <;> simp [Nat.add_mod, ha, hb]
  · exact Nat.xor_assoc _ _ _
  · ac_rfl
  · have hcancel : p ^^^ (b.toNat / 2 ^^^ p) = b.toNat / 2 := by
      rw [Nat.xor_comm (b.toNat / 2), ← Nat.xor_assoc, Nat.xor_self, Nat.zero_xor]
    rw [Nat.xor_assoc, hcancel]

/-- No register but the empty one is shifted to the empty one. -/
theorem eq_zero_of_shift {r : UInt32} (h : shift r = 0) : r = 0 := by
  have hnat := congrArg UInt32.toNat h
  rw [toNat_shift] at hnat
  have hlt := r.toNat_lt
  have hzero : (0 : UInt32).toNat = 0 := rfl
  apply UInt32.toNat_inj.1
  by_cases hodd : r.toNat % 2 = 1
  · -- nothing that comes from above can cancel the top bit of the generator
    rw [if_pos hodd] at hnat
    have heq : r.toNat / 2 = polynomial.toNat := Nat.xor_eq_zero_iff.1 hnat
    have hpoly : polynomial.toNat = 0xedb88320 := rfl
    omega
  · rw [if_neg hodd, Nat.xor_zero] at hnat
    omega

theorem shift_injective : Function.Injective shift := by
  intro a b h
  have hzero : shift (a ^^^ b) = 0 := by rw [shift_xor, h, UInt32.xor_self]
  have hsame := eq_zero_of_shift hzero
  exact UInt32.xor_eq_zero_iff.1 hsame

/-- A number that is even moves down. -/
theorem shift_ofNat {n : Nat} (h : 2 * n < 2 ^ (32 : Nat)) :
    shift (UInt32.ofNat (2 * n)) = UInt32.ofNat n := by
  apply UInt32.toNat_inj.1
  rw [toNat_shift, UInt32.toNat_ofNat_of_lt' h, UInt32.toNat_ofNat_of_lt' (by omega : n < 2 ^ 32),
    if_neg (by omega), Nat.xor_zero]
  omega

/-! ## §3. Several shifts. -/

/-- The register after `n` shifts. -/
def shifts (n : Nat) (r : UInt32) : UInt32 := shift^[n] r

theorem shifts_succ (n : Nat) (r : UInt32) : shifts (n + 1) r = shift (shifts n r) :=
  Function.iterate_succ_apply' shift n r

theorem shifts_add (m n : Nat) (r : UInt32) : shifts (m + n) r = shifts m (shifts n r) :=
  Function.iterate_add_apply shift m n r

theorem shifts_injective (n : Nat) : Function.Injective (shifts n) := shift_injective.iterate n

theorem shifts_xor (n : Nat) (a b : UInt32) : shifts n (a ^^^ b) = shifts n a ^^^ shifts n b := by
  induction n with
  | zero => rfl
  | succ n ih => rw [shifts_succ, ih, shift_xor, ← shifts_succ, ← shifts_succ]

/-- No number of shifts fills an empty register. -/
theorem shifts_zero (n : Nat) : shifts n 0 = 0 := by
  have htwice : shifts n 0 = shifts n 0 ^^^ shifts n 0 := by
    rw [← shifts_xor, UInt32.xor_self]
  rw [htwice, UInt32.xor_self]

/-- Low zeros are shifted out without a trace. -/
theorem shifts_ofNat (n : Nat) {k : Nat} (h : 2 ^ n * k < 2 ^ (32 : Nat)) :
    shifts n (UInt32.ofNat (2 ^ n * k)) = UInt32.ofNat k := by
  induction n generalizing k with
  | zero =>
    rw [Nat.pow_zero, Nat.one_mul]
    rfl
  | succ n ih =>
    have hpow : 2 ^ (n + 1) * k = 2 ^ n * (2 * k) := by rw [Nat.pow_succ, Nat.mul_assoc]
    have hpos : 0 < 2 ^ n := Nat.two_pow_pos n
    rw [hpow] at h ⊢
    have hk : 2 * k < 2 ^ 32 := Nat.lt_of_le_of_lt (Nat.le_mul_of_pos_left _ hpos) h
    rw [shifts_succ, ih h, shift_ofNat hk]

/-! ## §4. A few bits. -/

/-- A number and one above its bits do not touch each other. -/
theorem ofNat_add (n : Nat) {low : Nat} (high : Nat) (h : low < 2 ^ n) :
    UInt32.ofNat (low + 2 ^ n * high) = UInt32.ofNat low ^^^ UInt32.ofNat (2 ^ n * high) := by
  have hnat : low + 2 ^ n * high = low ^^^ 2 ^ n * high := by
    apply Nat.eq_of_testBit_eq
    intro i
    rw [Nat.add_comm, Nat.testBit_two_pow_mul_add _ h, Nat.testBit_xor, Nat.testBit_two_pow_mul]
    by_cases hi : i < n
    · simp [hi, Nat.not_le_of_lt hi]
    · have hgone : low.testBit i = false :=
        Nat.testBit_lt_two_pow (Nat.lt_of_lt_of_le h (Nat.pow_le_pow_right (by decide) (by omega)))
      simp [hi, hgone, Nat.le_of_not_lt hi]
  rw [hnat]
  apply UInt32.toBitVec_inj.1
  simp

/-- The number that bits make up, the first one being the lowest. -/
def number (bs : List Bool) : Nat := bs.foldr (fun b n => b.toNat + 2 * n) 0

theorem number_cons (b : Bool) (bs : List Bool) : number (b :: bs) = b.toNat + 2 * number bs := rfl

theorem number_lt (bs : List Bool) : number bs < 2 ^ bs.length := by
  induction bs with
  | nil => decide
  | cons b bs ih =>
    have hb := b.toNat_lt
    rw [number_cons, List.length_cons, Nat.pow_succ]
    omega

theorem number_append (xs ys : List Bool) :
    number (xs ++ ys) = number xs + 2 ^ xs.length * number ys := by
  induction xs with
  | nil => simp [number]
  | cons b xs ih =>
    rw [List.cons_append, number_cons, number_cons, ih, List.length_cons, Nat.pow_succ',
      Nat.mul_assoc]
    omega

/-- The low bits of a number make up what they count for in it. -/
theorem number_testBit (n x : Nat) : number ((List.range n).map x.testBit) = x % 2 ^ n := by
  induction n generalizing x with
  | zero => rw [Nat.pow_zero, Nat.mod_one]; rfl
  | succ n ih =>
    have hhigh : ((List.range n).map Nat.succ).map x.testBit =
        (List.range n).map (x / 2).testBit := by
      rw [List.map_map]
      apply List.map_congr_left
      intro i _
      exact Nat.testBit_succ x i
    have hlow : (x.testBit 0).toNat = x % 2 := by
      rw [Nat.testBit_zero]
      rcases Nat.mod_two_eq_zero_or_one x with h | h <;> simp [h]
    rw [List.range_succ_eq_map, List.map_cons, number_cons, hhigh, ih, hlow, Nat.pow_succ',
      Nat.mod_mul]

theorem number_octetBits (o : UInt8) : number (octetBits o) = o.toNat := by
  rw [octetBits, number_testBit]
  exact Nat.mod_eq_of_lt o.toNat_lt

theorem number_bits (bs : Bytes) : number (bits bs) = Bytes.toNatLE bs := by
  induction bs with
  | nil => rfl
  | cons o bs ih =>
    rw [Bytes.bits_cons, number_append, number_octetBits, Bytes.length_octetBits, ih]
    rfl

/-- **Up to 32 bits are added to the register as the number they make up.** -/
theorem foldl_bit_few {bs : List Bool} (h : bs.length ≤ 32) (r : UInt32) :
    bs.foldl bit r = shifts bs.length (r ^^^ UInt32.ofNat (number bs)) := by
  -- a bit shifts those behind it down to where the next one is added
  induction bs generalizing r with
  | nil => exact UInt32.xor_zero.symm
  | cons b bs ih =>
    rw [List.length_cons] at h
    have hfits : 2 * number bs < 2 ^ 32 := by
      have hlt := number_lt bs
      have hpow : 2 ^ bs.length ≤ 2 ^ 31 := Nat.pow_le_pow_right (by decide) (by omega)
      omega
    have hnumber : UInt32.ofNat (number (b :: bs)) =
        (if b then 1 else 0) ^^^ UInt32.ofNat (2 * number bs) := by
      have hsplit := ofNat_add 1 (number bs) b.toNat_lt
      rw [Nat.pow_one] at hsplit
      rw [number_cons, hsplit]
      cases b <;> rfl
    rw [List.foldl_cons, ih (by omega), List.length_cons, shifts_add, hnumber, ← UInt32.xor_assoc]
    show _ = shifts bs.length (shift _)
    rw [shift_xor, shift_ofNat hfits]
    rfl

/-! ## §5. Octets. -/

/-- An octet is fed as its bits. -/
theorem octet_eq_foldl (r : UInt32) (o : UInt8) : octet r o = (octetBits o).foldl bit r :=
  List.foldl_map.symm

/-- An octet is added to the register, which is shifted eight times. -/
theorem octet_eq (r : UInt32) (o : UInt8) :
    octet r o = shifts 8 (r ^^^ UInt32.ofNat o.toNat) := by
  rw [octet_eq_foldl, foldl_bit_few (by rw [Bytes.length_octetBits]; decide), number_octetBits,
    Bytes.length_octetBits]

/-- Octets are fed as their bits. -/
theorem foldl_octet_eq_bits (bs : Bytes) (r : UInt32) :
    bs.foldl octet r = (bits bs).foldl bit r := by
  have hone : octet = fun r o => (octetBits o).foldl bit r := by
    funext r o
    exact octet_eq_foldl r o
  rw [hone]
  exact List.foldl_flatMap.symm

/-- **Up to four octets are added to the register as the number they make up.** -/
theorem foldl_octet (bs : Bytes) (h : bs.length ≤ 4) (r : UInt32) :
    bs.foldl octet r = shifts (8 * bs.length) (r ^^^ UInt32.ofNat (Bytes.toNatLE bs)) := by
  have hfew : (bits bs).length ≤ 32 := by
    rw [Bytes.length_bits]
    omega
  rw [foldl_octet_eq_bits, foldl_bit_few hfew, number_bits, Bytes.length_bits]

/-- **The table does what the bits do.** -/
theorem tableStep_eq_octet (r : UInt32) (o : UInt8) : tableStep r o = octet r o := by
  -- the low octet of the sum is the index, the other ones move down
  have hentry : ∀ i : UInt8, table.get i.toFin = shifts 8 (UInt32.ofNat i.toNat) := by
    intro i
    exact Vector.getElem_ofFn _
  have hparts : r ^^^ UInt32.ofNat o.toNat =
      UInt32.ofNat (r.toUInt8 ^^^ o).toNat ^^^ UInt32.ofNat (2 ^ 8 * (r.toNat / 2 ^ 8)) := by
    have hlow : r = UInt32.ofNat (r.toNat % 2 ^ 8) ^^^ UInt32.ofNat (2 ^ 8 * (r.toNat / 2 ^ 8)) := by
      rw [← ofNat_add 8 _ (Nat.mod_lt _ (by decide)), Nat.mod_add_div, UInt32.ofNat_toNat]
    have hindex : UInt32.ofNat (r.toUInt8 ^^^ o).toNat =
        UInt32.ofNat (r.toNat % 2 ^ 8) ^^^ UInt32.ofNat o.toNat := by
      rw [UInt8.toNat_xor, UInt32.toNat_toUInt8]
      apply UInt32.toBitVec_inj.1
      simp
    rw [hindex, UInt32.xor_assoc, UInt32.xor_comm (UInt32.ofNat o.toNat), ← UInt32.xor_assoc,
      ← hlow]
  have hhigh : UInt32.ofNat (r.toNat / 2 ^ 8) = r >>> 8 := by
    have hsmall : r.toNat / 2 ^ 8 < UInt32.size :=
      Nat.lt_of_le_of_lt (Nat.div_le_self ..) r.toNat_lt
    apply UInt32.toNat_inj.1
    rw [UInt32.toNat_shiftRight, UInt32.toNat_ofNat_of_lt' hsmall, Nat.shiftRight_eq_div_pow]
    rfl
  have hfits : 2 ^ 8 * (r.toNat / 2 ^ 8) < 2 ^ 32 :=
    Nat.lt_of_le_of_lt (Nat.mul_div_le ..) r.toNat_lt
  rw [octet_eq, hparts, shifts_xor, shifts_ofNat 8 hfits, hhigh, ← hentry]
  rfl

theorem foldl_tableStep (bs : Bytes) (r : UInt32) : bs.foldl tableStep r = bs.foldl octet r := by
  congr 1
  funext r o
  exact tableStep_eq_octet r o

/-- The register after a frame, bit by bit. -/
theorem register_update (frame : Bytes) :
    (({} : Crc32).update frame).register = frame.foldl octet 0xffffffff :=
  foldl_tableStep frame 0xffffffff

/-! ## §6. The sequence. -/

/-- The check sequence bit by bit. -/
theorem sequence_eq (frame : Bytes) :
    sequence frame = Bytes.ofNatLE 4 (~~~(frame.foldl octet 0xffffffff)).toNat :=
  congrArg (fun r : UInt32 => Bytes.ofNatLE 4 (~~~r).toNat) (register_update frame)

/-- Four octets leave the residue if they are the complement of the register,
and only then. -/
theorem foldl_octet_eq_residue_iff {bs : Bytes} (h : bs.length = 4) (r : UInt32) :
    bs.foldl octet r = residue ↔ bs = Bytes.ofNatLE 4 (~~~r).toNat := by
  have hones : shifts 32 (0xffffffff : UInt32) = residue := by decide +kernel
  have hlt : Bytes.toNatLE bs < 2 ^ 32 := by
    have hoctets := Bytes.toNatLE_lt bs
    rw [h] at hoctets
    omega
  have hcomplement : ∀ n : UInt32, r ^^^ n = 0xffffffff ↔ n = ~~~r := by
    intro n
    have hnot : ~~~r = r ^^^ 0xffffffff := by
      apply UInt32.toBitVec_inj.1
      exact BitVec.xor_allOnes.symm
    rw [hnot]
    constructor
    · intro hsum
      rw [← hsum, ← UInt32.xor_assoc, UInt32.xor_self, UInt32.zero_xor]
    · intro hn
      rw [hn, ← UInt32.xor_assoc, UInt32.xor_self, UInt32.zero_xor]
  rw [foldl_octet bs (by omega), h, ← hones, (shifts_injective 32).eq_iff, hcomplement]
  constructor
  · intro hnumber
    rw [← hnumber, UInt32.toNat_ofNat_of_lt' hlt, ← h, Bytes.ofNatLE_toNatLE]
  · intro hbs
    have hread : Bytes.toNatLE bs = (~~~r).toNat := by
      rw [hbs, Bytes.toNatLE_ofNatLE]
      exact Nat.mod_eq_of_lt (~~~r).toNat_lt
    rw [hread, UInt32.ofNat_toNat]

/-! ## §7. Frames. -/

/-- **The valid frames are those that end with their check sequence.** -/
theorem valid_iff (bs : Bytes) : valid bs = true ↔ ∃ frame, bs = append frame := by
  have hleft : ∀ frame tail : Bytes, tail.length = 4 →
      ((({} : Crc32).update (frame ++ tail)).check = true ↔ tail = sequence frame) := by
    intro frame tail htail
    rw [check, update_append, beq_iff_eq, sequence_eq]
    show tail.foldl tableStep (frame.foldl tableStep 0xffffffff) = residue ↔ _
    rw [foldl_tableStep, foldl_tableStep, foldl_octet_eq_residue_iff htail]
  rw [valid, Bool.and_eq_true, decide_eq_true_eq]
  constructor
  · rintro ⟨hlen, hcheck⟩
    have htail : (bs.drop (bs.length - 4)).length = 4 := by
      rw [List.length_drop]
      exact Nat.sub_sub_self hlen
    refine ⟨bs.take (bs.length - 4), ?_⟩
    rw [← List.take_append_drop (bs.length - 4) bs, hleft _ _ htail] at hcheck
    rw [append, ← hcheck, List.take_append_drop]
  · rintro ⟨frame, rfl⟩
    have htail : (sequence frame).length = 4 := Bytes.length_ofNatLE ..
    refine ⟨?_, (hleft frame _ htail).2 rfl⟩
    rw [append, List.length_append, htail]
    exact Nat.le_add_left ..

/-- A frame with its check sequence is valid. -/
theorem valid_append (frame : Bytes) : valid (append frame) = true :=
  (valid_iff _).2 ⟨frame, rfl⟩

/-- Without its check sequence the frame is as it was. -/
theorem take_append (frame : Bytes) :
    (append frame).take ((append frame).length - length) = frame := by
  have hlen : (append frame).length - length = frame.length := by simp [append, sequence]
  rw [hlen, append, List.take_left]

end Crc32
end NetBoard
