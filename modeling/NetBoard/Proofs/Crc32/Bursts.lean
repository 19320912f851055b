/-
  NetBoard.Proofs.Crc32.Bursts
  ────────────────────────────
  **DAMAGE THAT A CHECK SEQUENCE SHOWS.**

  A frame is a sequence of bits, and the register is linear in them: what a
  damaged frame leaves is what the frame leaves and, added to it, what the
  damage alone leaves in an empty register.  Zeros leave an empty register
  empty, the first set bits of a burst of up to 32 make up a number that is
  not zero, and nothing that follows can shift it away.

  Main definitions:

      damage      — octets after some of their bits were changed
      flipBit     — octets after one of their bits was changed

  Main statements:

      foldl_bit_xor      — the register is linear in the bits
      foldl_bit_burst    — a short burst does not leave an empty register
      bursts_detected    — a valid frame with a short burst in it is not valid
-/
import NetBoard.Proofs.Crc32

namespace NetBoard

open scoped Power

namespace Bytes

/-- Bit `i` is in octet `i / 8`. -/
theorem getElem?_bits (bs : Bytes) (i : Nat) :
    (bits bs)[i]? = bs[i / 8]?.map fun o => o.toNat.testBit (i % 8) := by
  induction bs generalizing i with
  | nil => rfl
  | cons o bs ih =>
    rw [bits_cons]
    by_cases hi : i < 8
    · have hdiv : i / 8 = 0 := by omega
      have hmod : i % 8 = i := by omega
      rw [List.getElem?_append_left (by simpa using hi), hdiv, hmod]
      simp [octetBits, hi]
    · have hdiv : i / 8 = (i - 8) / 8 + 1 := by omega
      have hmod : i % 8 = (i - 8) % 8 := by omega
      rw [List.getElem?_append_right (by simpa using Nat.le_of_not_lt hi), length_octetBits, ih,
        hdiv, hmod, List.getElem?_cons_succ]

end Bytes

namespace Crc32

open Bytes (bits octetBits)

/-! ## §1. Zeros. -/

/-- A zero that is fed only shifts. -/
theorem bit_false (r : UInt32) : bit r false = shift r := congrArg shift UInt32.xor_zero

/-- Zeros only shift. -/
theorem foldl_bit_zeros {bs : List Bool} (h : ∀ b ∈ bs, b = false) (r : UInt32) :
    bs.foldl bit r = shifts bs.length r := by
  induction bs generalizing r with
  | nil => rfl
  | cons b bs ih =>
    have hb : b = false := h b List.mem_cons_self
    have hrest : ∀ c ∈ bs, c = false := fun c hc => h c (List.mem_cons_of_mem b hc)
    rw [List.foldl_cons, ih hrest, hb, bit_false, List.length_cons, shifts_add]
    rfl

/-- The bits of nothing are zeros. -/
theorem eq_false_of_number {bs : List Bool} (h : number bs = 0) : ∀ b ∈ bs, b = false := by
  induction bs with
  | nil => simp
  | cons b bs ih =>
    rw [number_cons] at h
    have hb : b = false := by
      cases b with
      | false => rfl
      | true => simp at h
    have hrest : number bs = 0 := by omega
    intro c hc
    rcases List.mem_cons.1 hc with rfl | hc
    · exact hb
    · exact ih hrest c hc

/-! ## §2. Damage. -/

/-- The octets `bs` after the bits that are set in `error` were changed. -/
def damage (bs error : Bytes) : Bytes := List.zipWith (· ^^^ ·) bs error

theorem octetBits_xor (a b : UInt8) :
    octetBits (a ^^^ b) = List.zipWith xor (octetBits a) (octetBits b) := by
  unfold octetBits
  rw [List.zipWith_map, List.zipWith_self, UInt8.toNat_xor]
  apply List.map_congr_left
  intro i _
  exact Nat.testBit_xor ..

theorem bits_damage (bs error : Bytes) :
    bits (damage bs error) = List.zipWith xor (bits bs) (bits error) := by
  induction bs generalizing error with
  | nil => simp [damage]
  | cons o bs ih =>
    cases error with
    | nil => simp [damage]
    | cons e error =>
      have hrest : bits (damage bs error) = List.zipWith xor (bits bs) (bits error) := ih error
      show bits ((o ^^^ e) :: damage bs error) = _
      rw [Bytes.bits_cons, Bytes.bits_cons, Bytes.bits_cons, octetBits_xor, hrest,
        List.zipWith_append (by simp)]

/-- One bit is fed into two registers as into their sum. -/
theorem bit_xor (r s : UInt32) (a b : Bool) : bit (r ^^^ s) (a ^^ b) = bit r a ^^^ bit s b := by
  have hbits :
      (if (a ^^ b) then 1 else 0 : UInt32) = (if a then 1 else 0) ^^^ if b then 1 else 0 := by
    cases a <;> cases b <;> rfl
  unfold bit
  rw [← shift_xor, hbits]
  congr 1
  ac_rfl

/-- **The register is linear in the bits.** -/
theorem foldl_bit_xor {xs ys : List Bool} (h : xs.length = ys.length) (r s : UInt32) :
    (List.zipWith xor xs ys).foldl bit (r ^^^ s) = xs.foldl bit r ^^^ ys.foldl bit s := by
  induction xs generalizing ys r s with
  | nil =>
    have hys : ys = [] := List.eq_nil_of_length_eq_zero h.symm
    rw [hys]
    rfl
  | cons x xs ih =>
    cases ys with
    | nil => simp at h
    | cons y ys =>
      rw [List.zipWith_cons_cons, List.foldl_cons, List.foldl_cons, List.foldl_cons, bit_xor]
      exact ih (by simpa using h) (bit r x) (bit s y)

/-- A damaged frame leaves what the frame leaves, and what the damage alone leaves. -/
theorem foldl_octet_damage {bs error : Bytes} (h : error.length = bs.length) (r : UInt32) :
    (damage bs error).foldl octet r = bs.foldl octet r ^^^ (bits error).foldl bit 0 := by
  rw [foldl_octet_eq_bits, foldl_octet_eq_bits, bits_damage]
  have hlinear := foldl_bit_xor (by simp [h] : (bits bs).length = (bits error).length) r 0
  rw [UInt32.xor_zero] at hlinear
  exact hlinear

/-- Damage to a valid frame shows unless it leaves an empty register. -/
theorem valid_damage {bs error : Bytes} (hvalid : valid bs = true)
    (hlen : error.length = bs.length) (hdamage : (bits error).foldl bit 0 ≠ 0) :
    valid (damage bs error) = false := by
  rw [valid, Bool.and_eq_true, check, beq_iff_eq, register_update] at hvalid
  have hchanged : (damage bs error).foldl octet 0xffffffff ≠ residue := by
    rw [foldl_octet_damage hlen, hvalid.2]
    intro hsame
    have hempty : residue ^^^ (residue ^^^ (bits error).foldl bit 0) = 0 := by
      rw [hsame, UInt32.xor_self]
    rw [← UInt32.xor_assoc, UInt32.xor_self, UInt32.zero_xor] at hempty
    exact hdamage hempty
  rw [valid, check, register_update, beq_eq_false_iff_ne.2 hchanged, Bool.and_false]

/-! ## §3. Bursts. -/

/-- A part of the bits in which none is set. -/
theorem eq_false_of_getElem? {bs : List Bool} (h : ∀ i : Nat, bs[i]? ≠ some true) :
    ∀ b ∈ bs, b = false := by
  intro b hb
  obtain ⟨i, hi⟩ := List.mem_iff_getElem?.1 hb
  cases b with
  | false => rfl
  | true => exact absurd hi (h i)

/-- **A burst of up to 32 bits does not leave an empty register**, whatever zeros
stand before and behind it. -/
theorem foldl_bit_burst {error : List Bool} {start : Nat} (hsome : true ∈ error)
    (hwindow : ∀ i : Nat, error[i]? = some true → start ≤ i ∧ i < start + 32) :
    error.foldl bit 0 ≠ 0 := by
  let burst := (error.drop start).take 32
  have hbefore : ∀ b ∈ error.take start, b = false := by
    apply eq_false_of_getElem?
    intro i hi
    rw [List.getElem?_take] at hi
    split at hi
    · have hin := hwindow i hi
      omega
    · cases hi
  have hbehind : ∀ b ∈ (error.drop start).drop 32, b = false := by
    apply eq_false_of_getElem?
    intro i hi
    rw [List.getElem?_drop, List.getElem?_drop] at hi
    have hin := hwindow _ hi
    omega
  have hsplit : error = error.take start ++ (burst ++ (error.drop start).drop 32) := by
    rw [List.take_append_drop, List.take_append_drop]
  have hfew : burst.length ≤ 32 := List.length_take_le ..
  intro hempty
  -- the zeros behind the burst cannot empty the register, nor can shifting its number
  rw [hsplit, List.foldl_append, List.foldl_append, foldl_bit_zeros hbefore, shifts_zero,
    foldl_bit_zeros hbehind, foldl_bit_few hfew, UInt32.zero_xor] at hempty
  have hburst := shifts_injective _ (hempty.trans (shifts_zero _).symm)
  have hword : UInt32.ofNat (number burst) = 0 :=
    shifts_injective _ (hburst.trans (shifts_zero _).symm)
  have hnumber : number burst = 0 := by
    have hlt : number burst < 2 ^ 32 :=
      Nat.lt_of_lt_of_le (number_lt burst) (Nat.pow_le_pow_right (by decide) hfew)
    rw [← UInt32.toNat_ofNat_of_lt' hlt, hword]
    rfl
  have hnone := eq_false_of_number hnumber
  rw [hsplit, List.mem_append, List.mem_append] at hsome
  rcases hsome with hin | hin | hin
  · exact Bool.noConfusion (hbefore true hin)
  · exact Bool.noConfusion (hnone true hin)
  · exact Bool.noConfusion (hbehind true hin)

/-! ## §4. One bit. -/

/-- The octets `bs` after bit `i` of them was changed. -/
def flipBit (i : Nat) (bs : Bytes) : Bytes := bs.modify (i / 8) (· ^^^ UInt8.ofNat (2 ^ (i % 8)))

/-- The error in which only bit `i` is set. -/
def oneBit (length i : Nat) : Bytes :=
  (List.replicate length 0).set (i / 8) (UInt8.ofNat (2 ^ (i % 8)))

@[simp] theorem length_oneBit (length i : Nat) : (oneBit length i).length = length := by
  simp [oneBit]

theorem flipBit_eq_damage (i : Nat) (bs : Bytes) : flipBit i bs = damage bs (oneBit bs.length i) := by
  apply List.ext_getElem?
  intro j
  unfold flipBit damage oneBit
  rw [List.getElem?_modify, List.getElem?_zipWith, List.getElem?_set]
  by_cases hj : j < bs.length
  · by_cases hij : i / 8 = j
    · simp [hij, hj]
    · simp [hij, hj]
  · simp [hj]

theorem getElem?_bits_oneBit {length i : Nat} (hi : i < 8 * length) (j : Nat) :
    (bits (oneBit length i))[j]? = some true ↔ j = i := by
  have hbit : (UInt8.ofNat (2 ^ (i % 8))).toNat = 2 ^ (i % 8) :=
    Beat.toNat_flag (Nat.mod_lt i (by decide))
  have hin : i / 8 < length := by omega
  rw [Bytes.getElem?_bits, oneBit, List.getElem?_set]
  by_cases hoctet : i / 8 = j / 8
  · simp only [hoctet, hoctet ▸ hin, List.length_replicate, if_true, Option.map_some, hbit,
      Nat.testBit_two_pow, Option.some.injEq, decide_eq_true_eq]
    omega
  · have hne : j ≠ i := by
      rintro rfl
      exact hoctet rfl
    rw [if_neg hoctet, List.getElem?_replicate]
    by_cases hj : j / 8 < length
    · simp [hj, hne]
    · simp [hj, hne]

/-! ## §5. Frames. -/

/-- **A check sequence shows every short burst.**

Of a frame that is followed by its check sequence, let some bits be changed that
lie in a window of 32: in the frame, in the sequence or across their border.
What is left is not a valid frame.  In particular no single bit can be changed
unnoticed. -/
theorem bursts_detected (frame : Bytes) :
    (∀ (error : Bytes) (start : Nat), error.length = (append frame).length →
      true ∈ bits error →
      (∀ i : Nat, (bits error)[i]? = some true → start ≤ i ∧ i < start + 32) →
      valid (damage (append frame) error) = false) ∧
    ∀ i < 8 * (append frame).length, valid (flipBit i (append frame)) = false := by
  constructor
  · intro error start hlen hsome hwindow
    exact valid_damage (valid_append frame) hlen (foldl_bit_burst hsome hwindow)
  · intro i hi
    have honly := getElem?_bits_oneBit hi
    rw [flipBit_eq_damage]
    apply valid_damage (valid_append frame) (length_oneBit ..)
    have hwindow : ∀ j : Nat, (bits (oneBit (append frame).length i))[j]? = some true →
        i ≤ j ∧ j < i + 32 := by
      intro j hj
      have hji := (honly j).1 hj
      omega
    exact foldl_bit_burst (List.mem_of_getElem? ((honly i).2 rfl)) hwindow

/-- Thirty-two changed bits that begin in a frame of three octets and end in the
last octet of its sequence. -/
theorem bursts_detected_border :
    let error : Bytes := [0, 0, 0xf0, 0xff, 0xff, 0xff, 0x0f]
    error.length = (append [1, 2, 3]).length ∧ true ∈ bits error ∧
      (∀ i : Nat, (bits error)[i]? = some true → 20 ≤ i ∧ i < 52) ∧
      valid (damage (append [1, 2, 3]) error) = false ∧
      37 < 8 * (append [1, 2, 3]).length ∧ valid (flipBit 37 (append [1, 2, 3])) = false := by
  intro error
  have hlen : error.length = (append [1, 2, 3]).length := by simp [error, append, sequence, length]
  have hsome : true ∈ bits error := by decide
  have hwindow : ∀ i : Nat, (bits error)[i]? = some true → 20 ≤ i ∧ i < 52 := by
    have hbits : ∀ i < 56, (bits error)[i]? = some true → 20 ≤ i ∧ i < 52 := by decide
    intro i hi
    exact hbits i (List.getElem?_eq_some_iff.1 hi).1 hi
  have hin : 37 < 8 * (append [1, 2, 3]).length := by simp [append, sequence, length]
  obtain ⟨hbursts, hbits⟩ := bursts_detected [1, 2, 3]
  exact ⟨hlen, hsome, hwindow, hbursts error 20 hlen hsome hwindow, hin, hbits 37 hin⟩

end Crc32
end NetBoard
