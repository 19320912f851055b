/-
  NetBoard.Proofs.Crc32.Standard
  ──────────────────────────────
  **THE CHECK SEQUENCE OF THE STANDARD.**

  The standard divides the bits of a frame by a generator, from a register of
  ones whose highest place is that of x³¹, and sends the complement of the
  remainder from x³¹ on.  The register of this library holds the same
  remainder from x³¹ down in its low places, so that what is sent first is
  what comes first in an octet.  Reading the register backwards turns each bit
  that is fed into a step of that division.

  Main definitions:

      divide            — one bit of a message through the register of the standard
      remainder         — what a message leaves in it
      standardSequence  — the check sequence of the standard, in octets

  Main statements:

      reverse_bit          — feeding a bit is dividing backwards
      reverse_register     — the register read backwards is the remainder
      valid_iff_standard   — the valid frames are those with the sequence of the standard
-/
import NetBoard.Proofs.Crc32.Bursts

namespace NetBoard.Crc32

open Bytes (bits)

/-! ## §1. The division of the standard. -/

/-- The generator x³² + x²⁶ + … + 1 without its highest term, x³¹ in the highest place. -/
def generator : BitVec 32 := 0x04c11db7

/-- One bit of a message is divided: the register moves up, and the generator is
taken off if what falls out differs from the bit. -/
def divide (r : BitVec 32) (b : Bool) : BitVec 32 :=
  if r.msb ^^ b then (r <<< 1) ^^^ generator else r <<< 1

/-- What the bits of a message leave in a register of ones. -/
def remainder (message : List Bool) : BitVec 32 := message.foldl divide (BitVec.allOnes 32)

/-- The check sequence of the standard as a number, x³¹ in the lowest place. -/
def standardValue (frame : Bytes) : UInt32 := ⟨(~~~remainder (bits frame)).reverse⟩

/-- The check sequence of the standard, the least significant octet first. -/
def standardSequence (frame : Bytes) : Bytes := Bytes.ofNatLE 4 (standardValue frame).toNat

/-- What the register of the standard holds after a frame and its check sequence. -/
def standardResidue : BitVec 32 := 0xc704dd7b

/-! ## §2. The register read backwards. -/

theorem reverse_xor (x y : BitVec 32) : (x ^^^ y).reverse = x.reverse ^^^ y.reverse := by
  apply BitVec.eq_of_getLsbD_eq
  intro i _
  simp only [BitVec.getLsbD_reverse, BitVec.getLsbD_xor, BitVec.getMsbD_xor]

/-- Moving down is moving up backwards. -/
theorem reverse_ushiftRight_one (x : BitVec 32) : (x >>> 1).reverse = x.reverse <<< 1 := by
  apply BitVec.eq_of_getLsbD_eq
  intro i hi
  rw [BitVec.getLsbD_reverse, BitVec.getMsbD_ushiftRight, BitVec.getLsbD_shiftLeft,
    BitVec.getLsbD_reverse]
  by_cases h : i < 1
  · simp [h]
  · simp [h, hi]

theorem reverse_inj {x y : BitVec 32} : x.reverse = y.reverse ↔ x = y := by
  constructor
  · intro h
    rw [← BitVec.reverse_reverse_eq (x := x), h, BitVec.reverse_reverse_eq]
  · intro h
    rw [h]

/-- The bit that falls out of the register is the one in its lowest place. -/
theorem and_one_iff (r : UInt32) : r &&& 1 = 1 ↔ r.toBitVec.getLsbD 0 = true := by
  rw [← UInt32.toBitVec_inj, UInt32.toBitVec_and, UInt32.toBitVec_ofNat,
    BitVec.and_one_eq_setWidth_ofBool_getLsbD]
  cases r.toBitVec.getLsbD 0 <;> decide

/-- A shift of the register, read backwards. -/
theorem reverse_shift (r : UInt32) :
    (shift r).toBitVec.reverse = divide r.toBitVec.reverse false := by
  have hfalls : (r.toBitVec.reverse.msb ^^ false) = r.toBitVec.getLsbD 0 := by
    rw [BitVec.msb_reverse, Bool.xor_false]
  have hdown : (r >>> 1).toBitVec.reverse = r.toBitVec.reverse <<< 1 :=
    reverse_ushiftRight_one r.toBitVec
  unfold shift divide
  rw [hfalls]
  by_cases h : r.toBitVec.getLsbD 0 = true
  · have hpolynomial : polynomial.toBitVec.reverse = generator := by decide +kernel
    rw [if_pos ((and_one_iff r).2 h), if_pos h, UInt32.toBitVec_xor, reverse_xor, hdown,
      hpolynomial]
  · rw [if_neg (fun hlow => h ((and_one_iff r).1 hlow)), if_neg h, hdown]

/-- A one that is fed is a one that falls out of the register. -/
theorem divide_true (r : BitVec 32) : divide r true = divide (r ^^^ 0x80000000) false := by
  have hfalls : ((r ^^^ 0x80000000).msb ^^ false) = (r.msb ^^ true) := by
    rw [BitVec.msb_xor, Bool.xor_false]
    rfl
  have hgone : (r ^^^ 0x80000000) <<< 1 = r <<< 1 := by
    rw [BitVec.shiftLeft_xor_distrib]
    exact BitVec.xor_zero
  unfold divide
  rw [hfalls, hgone]

/-- **Feeding a bit is dividing backwards.** -/
theorem reverse_bit (r : UInt32) (b : Bool) :
    (bit r b).toBitVec.reverse = divide r.toBitVec.reverse b := by
  cases b with
  | false => rw [bit_false, reverse_shift]
  | true =>
    have hone : (1 : UInt32).toBitVec.reverse = 0x80000000 := by decide +kernel
    have hbit : bit r true = shift (r ^^^ 1) := rfl
    rw [hbit, reverse_shift, UInt32.toBitVec_xor, reverse_xor, hone, divide_true]

theorem reverse_foldl_bit (message : List Bool) (r : UInt32) :
    (message.foldl bit r).toBitVec.reverse = message.foldl divide r.toBitVec.reverse := by
  induction message generalizing r with
  | nil => rfl
  | cons b message ih => rw [List.foldl_cons, ih, reverse_bit, List.foldl_cons]

/-! ## §3. Octets in pieces. -/

/-- It does not matter into which pieces octets are cut. -/
theorem foldl_update (pieces : List Bytes) (c : Crc32) :
    pieces.foldl update c = c.update pieces.flatten := by
  induction pieces generalizing c with
  | nil => rfl
  | cons piece pieces ih =>
    rw [List.foldl_cons, ih, List.flatten_cons, update_append]

/-- **The register read backwards is the remainder of the standard.** -/
theorem reverse_register (frame : Bytes) :
    (({} : Crc32).update frame).register.toBitVec.reverse = remainder (bits frame) := by
  have hones : (0xffffffff : UInt32).toBitVec.reverse = BitVec.allOnes 32 := by decide +kernel
  rw [register_update, foldl_octet_eq_bits, reverse_foldl_bit, hones, remainder]

theorem reverse_not (x : BitVec 32) : (~~~x).reverse = ~~~x.reverse := by
  apply BitVec.eq_of_getLsbD_eq
  intro i hi
  simp only [BitVec.getLsbD_reverse, BitVec.getLsbD_not, BitVec.getMsbD_not, hi, decide_true,
    Bool.true_and]

/-- The sequence that the table gives is that of the standard. -/
theorem value_update (frame : Bytes) :
    (({} : Crc32).update frame).value = standardValue frame := by
  apply UInt32.toBitVec_inj.1
  show ~~~_ = (~~~remainder (bits frame)).reverse
  rw [← reverse_register, reverse_not, BitVec.reverse_reverse_eq]

/-! ## §4. What a valid frame leaves. -/

/-- The register of a valid frame, read backwards. -/
theorem check_iff (c : Crc32) : c.check = true ↔ c.register.toBitVec.reverse = standardResidue := by
  have hresidue : residue.toBitVec.reverse = standardResidue := by decide +kernel
  rw [check, beq_iff_eq, ← hresidue, reverse_inj, UInt32.toBitVec_inj]

/-- Fewer octets than a sequence has never leave what a valid frame does. -/
theorem length_of_check {frame : Bytes} (h : (({} : Crc32).update frame).check = true) :
    4 ≤ frame.length := by
  -- three octets can only change three quarters of the register the ones came from
  have hfar : ∀ n < 4, 256 ^ n ≤ (0xffffffff ^^^ shifts (32 - 8 * n) 0xffffffff : UInt32).toNat := by
    decide +kernel
  have hones : shifts 32 (0xffffffff : UInt32) = residue := by decide +kernel
  by_contra hshort
  have hlen : frame.length < 4 := by omega
  have hsmall := Bytes.toNatLE_lt frame
  have hword : Bytes.toNatLE frame < 2 ^ 32 := by
    have hthree := Bytes.toNatLE_lt_of_length_le (by omega : frame.length ≤ 3)
    omega
  have hsum : 32 = 8 * frame.length + (32 - 8 * frame.length) := by omega
  rw [check, beq_iff_eq, register_update, foldl_octet frame (by omega), ← hones] at h
  conv at h => rhs; rw [hsum, shifts_add]
  have hstart := shifts_injective _ h
  have hnumber : UInt32.ofNat (Bytes.toNatLE frame) =
      0xffffffff ^^^ shifts (32 - 8 * frame.length) 0xffffffff := by
    rw [← hstart, ← UInt32.xor_assoc, UInt32.xor_self, UInt32.zero_xor]
  have hfit := hfar frame.length hlen
  rw [← hnumber, UInt32.toNat_ofNat_of_lt' hword] at hfit
  omega

/-- The length of a frame need not be asked for. -/
theorem valid_eq_check (frame : Bytes) : valid frame = (({} : Crc32).update frame).check := by
  rw [Bool.eq_iff_iff, valid, Bool.and_eq_true, decide_eq_true_eq]
  exact ⟨fun h => h.2, fun h => ⟨length_of_check h, h⟩⟩

/-- A valid frame is what it is without its last four octets, and their sequence. -/
theorem valid_iff_append_take (frame : Bytes) :
    valid frame = true ↔ 4 ≤ frame.length ∧ frame = append (frame.take (frame.length - 4)) := by
  constructor
  · intro h
    obtain ⟨body, rfl⟩ := (valid_iff frame).1 h
    have hbody : (append body).take ((append body).length - 4) = body := take_append body
    refine ⟨?_, by rw [hbody]⟩
    rw [append, List.length_append, sequence, Bytes.length_ofNatLE]
    exact Nat.le_add_left ..
  · rintro ⟨-, hframe⟩
    exact (valid_iff frame).2 ⟨_, hframe⟩

/-- **A frame is valid exactly if it ends with the check sequence of the standard.**

Let octets be fed in any pieces.  They are a valid frame if and only if there
are at least four of them and they are what is in front of the last four,
followed by its check sequence.  That sequence is the one of the standard,
computed bit by bit; the register gives it after the frame, and after frame and
sequence the register read backwards holds the residue of the standard. -/
theorem valid_iff_standard (pieces : List Bytes) :
    let frame := pieces.flatten
    let fed := pieces.foldl update ({} : Crc32)
    (valid frame = true ↔ 4 ≤ frame.length ∧ frame = append (frame.take (frame.length - 4))) ∧
    append frame = frame ++ standardSequence frame ∧
    fed.value = standardValue frame ∧
    (fed.check = true ↔ valid frame = true) ∧
    (fed.check = true ↔ fed.register.toBitVec.reverse = standardResidue) := by
  intro frame fed
  have hfed : fed = ({} : Crc32).update frame := foldl_update pieces {}
  refine ⟨valid_iff_append_take frame, ?_, ?_, ?_, check_iff fed⟩
  · show frame ++ Bytes.ofNatLE length (({} : Crc32).update frame).value.toNat = _
    rw [value_update, standardSequence]
    rfl
  · rw [hfed, value_update]
  · rw [hfed, valid_eq_check]

/-- The sequence of the digits from one to nine, fed in two pieces. -/
example : ([[0x31, 0x32, 0x33, 0x34], [0x35, 0x36, 0x37, 0x38, 0x39]].foldl update ({} : Crc32)).value =
    0xcbf43926 := by decide +kernel

end NetBoard.Crc32
