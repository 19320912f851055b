/-
  NetBoard.Proofs.Beat.Realign
  ────────────────────────────
  **MOVING OCTETS ACROSS WORDS.**

  A header that does not fill its last word moves every later octet up or down
  by a fixed number of lanes.  Here the shifts, masks and rotated flags of the
  bus are read as operations on octet strings: moving up and or-ing appends,
  moving down drops, and rotating a flag adds to its lane modulo the width.

  Main statements:

      word_append       — low lanes of one word, above them the head of another
      word_tail         — what is left of a word without its low lanes
      rotateFlags_flag  — a rotated flag marks the lane modulo the width
-/
import NetBoard.Header.Packetizer
import NetBoard.Proofs.Beat.Octets

namespace NetBoard

open scoped Power

/-! ## §1. The widths of the bus. -/

/-- The bus is one, two, four or eight octets wide. -/
def SupportedWidth (w : Nat) : Prop := w = 1 ∨ w = 2 ∨ w = 4 ∨ w = 8

namespace SupportedWidth

theorem pos {w : Nat} (h : SupportedWidth w) : 0 < w := by
  unfold SupportedWidth at h
  omega

theorem le_eight {w : Nat} (h : SupportedWidth w) : w ≤ 8 := by
  unfold SupportedWidth at h
  omega

end SupportedWidth

/-- A word has lanes for this many octets; of such widths four are supported. -/
structure FitsWord (w : Nat) : Prop where
  pos : 0 < w
  le_eight : w ≤ 8

theorem SupportedWidth.fits {w : Nat} (h : SupportedWidth w) : FitsWord w := ⟨h.pos, h.le_eight⟩

/-- These are the widths that pass the check. -/
theorem checkWidth_eq_ok_iff {w v : Nat} : checkWidth w = .ok v ↔ SupportedWidth w ∧ v = w := by
  unfold checkWidth SupportedWidth
  split
  · next h => simp [h, eq_comm]
  · next h => simp [h]

theorem checkWidth_eq_error_iff {w : Nat} {fault : Fault} :
    checkWidth w = .error fault ↔ ¬SupportedWidth w ∧ fault = .unsupportedWidth w := by
  unfold checkWidth SupportedWidth
  split
  · next h => simp [h]
  · next h => simp [h, eq_comm]

/-! ## §2. Words. -/

/-- The octets on the lanes of a word, lane 0 first. -/
def laneWord (bs : Bytes) : UInt64 := UInt64.ofNat bs.toNatLE

@[simp] theorem data_inner (bs : Bytes) : (Beat.inner bs).data = laneWord bs := rfl

@[simp] theorem data_closing (bs : Bytes) : (Beat.closing bs).data = laneWord bs := rfl

theorem toNat_laneWord {bs : Bytes} (h : bs.length ≤ 8) : (laneWord bs).toNat = bs.toNatLE :=
  Beat.toNat_ofNat_toNatLE h

theorem toNat_lanesMask {w : Nat} (hw : w ≤ 8) : (lanesMask w).toNat = 2 ^ (8 * w) - 1 := by
  have hlt : 2 ^ (8 * w) ≤ 2 ^ 64 := Nat.pow_le_pow_right (by decide) (by omega)
  have hpos : 0 < 2 ^ (8 * w) := Nat.pow_pos (by decide)
  rw [lanesMask, Nat.min_eq_left hw, UInt64.toNat_ofNat', Nat.mod_eq_of_lt (by omega)]

/-- The mask of a width keeps the number modulo its words. -/
theorem toNat_and_lanesMask (x : UInt64) {w : Nat} (hw : w ≤ 8) :
    (x &&& lanesMask w).toNat = x.toNat % 256 ^ w := by
  rw [UInt64.toNat_and, toNat_lanesMask hw, Nat.and_two_pow_sub_one_eq_mod, Nat.pow_mul]

theorem toNat_shift {n : Nat} (hn : n < 8) : (UInt64.ofNat (8 * n)).toNat = 8 * n := by
  rw [UInt64.toNat_ofNat']
  omega

/-- Dropping the low lanes moves the others down. -/
theorem word_drop {bs : Bytes} (h : bs.length ≤ 8) {n : Nat} (hn : n < 8) :
    Packetizer.down (laneWord bs) n = laneWord (bs.drop n) := by
  apply UInt64.toNat_inj.1
  rw [Packetizer.down, UInt64.toNat_shiftRight, toNat_shift hn, toNat_laneWord h,
    toNat_laneWord (by rw [List.length_drop]; omega), Bytes.toNatLE_drop,
    Nat.mod_eq_of_lt (by omega), Nat.shiftRight_eq_div_pow, Nat.pow_mul]

/-- The mask of the width leaves a word of the bus as it is. -/
theorem word_and_lanesMask {bs : Bytes} {w : Nat} (h : bs.length ≤ w) (hw : w ≤ 8) :
    laneWord bs &&& lanesMask w = laneWord bs := by
  apply UInt64.toNat_inj.1
  rw [toNat_and_lanesMask _ hw, toNat_laneWord (by omega),
    Nat.mod_eq_of_lt (Bytes.toNatLE_lt_of_length_le h)]

/-- The octets that a word of the bus leaves behind when its low lanes are sent. -/
theorem word_tail {bs : Bytes} {w n : Nat} (h : bs.length ≤ w) (hn : n < w) (hw : w ≤ 8) :
    Packetizer.down (laneWord bs) n &&& lanesMask w = laneWord (bs.drop n) := by
  rw [word_drop (by omega) (by omega), word_and_lanesMask (by rw [List.length_drop]; omega) hw]

/-- Octets that wait in the low lanes, and above them the head of the next word. -/
theorem word_append {xs ys : Bytes} {w : Nat} (hx : xs.length < 8) (hy : ys.length ≤ 8)
    (hxw : xs.length ≤ w) (hw : w ≤ 8) :
    (laneWord xs ||| Packetizer.up (laneWord ys) xs.length) &&& lanesMask w =
      laneWord (xs ++ ys.take (w - xs.length)) := by
  have hlen : (xs ++ ys.take (w - xs.length)).length ≤ 8 := by
    rw [List.length_append, List.length_take]
    omega
  have hxlt : xs.toNatLE < 2 ^ (8 * xs.length) := by
    rw [Nat.pow_mul]
    exact Bytes.toNatLE_lt xs
  have hup : (Packetizer.up (laneWord ys) xs.length).toNat =
      ys.toNatLE <<< (8 * xs.length) % 2 ^ 64 := by
    rw [Packetizer.up, UInt64.toNat_shiftLeft, toNat_shift hx, toNat_laneWord hy,
      Nat.mod_eq_of_lt (show 8 * xs.length < 64 by omega)]
  have hpow : 256 ^ w = 256 ^ xs.length * 256 ^ (w - xs.length) := by
    rw [← Nat.pow_add, Nat.add_sub_cancel' hxw]
  apply UInt64.toNat_inj.1
  rw [toNat_and_lanesMask _ hw, UInt64.toNat_or, hup, toNat_laneWord (by omega),
    toNat_laneWord hlen, Bytes.toNatLE_append, Bytes.toNatLE_take]
  -- the bits above the bus are cut by the mask in any case
  have hcut : (xs.toNatLE ||| ys.toNatLE <<< (8 * xs.length) % 2 ^ 64) % 256 ^ w =
      (xs.toNatLE ||| ys.toNatLE <<< (8 * xs.length)) % 256 ^ w := by
    have h64 : (2 : Nat) ^ (8 * w) ∣ 2 ^ 64 := Nat.pow_dvd_pow 2 (by omega)
    rw [show (256 : Nat) ^ w = 2 ^ (8 * w) by rw [Nat.pow_mul], Nat.or_mod_two_pow,
      Nat.mod_mod_of_dvd _ h64, ← Nat.or_mod_two_pow]
  rw [hcut, Nat.or_comm, ← Nat.shiftLeft_add_eq_or_of_lt hxlt, Nat.shiftLeft_eq, Nat.pow_mul,
    hpow, Nat.mod_mul]
  show (ys.toNatLE * 256 ^ xs.length + xs.toNatLE) % 256 ^ xs.length + _ = _
  rw [Nat.mul_add_mod_self_right, Nat.mod_eq_of_lt (Bytes.toNatLE_lt xs), Nat.add_comm (_ * _),
    Nat.add_mul_div_right _ _ (Nat.pow_pos (by decide)),
    Nat.div_eq_of_lt (Bytes.toNatLE_lt xs), Nat.zero_add]

/-! ## §3. Flags. -/

/-- The flag of a lane. -/
def laneFlag (lane : Nat) : UInt8 := UInt8.ofNat (2 ^ lane)

@[simp] theorem lastBe_closing (bs : Bytes) :
    (Beat.closing bs).lastBe = laneFlag (bs.length - 1) := rfl

/-- Rotating moves a flag to its lane modulo the width. -/
theorem rotateFlags_flag {w lane shift : Nat} (hw : FitsWord w) (hlane : lane < w)
    (hshift : shift < w) :
    rotateFlags (laneFlag lane) shift w = laneFlag ((lane + shift) % w) := by
  have all : ∀ w ≤ 8, ∀ lane < w, ∀ shift < w,
      rotateFlags (laneFlag lane) shift w = laneFlag ((lane + shift) % w) := by decide
  exact all w hw.le_eight lane hlane shift hshift

/-- Flags compare as their lanes. -/
theorem laneFlag_lt_iff {a b : Nat} (ha : a < 8) (hb : b < 8) :
    laneFlag a < laneFlag b ↔ a < b := by
  rw [UInt8.lt_iff_toNat_lt, laneFlag, laneFlag, Beat.toNat_flag ha, Beat.toNat_flag hb]
  exact Nat.pow_lt_pow_iff_right (by decide)

/-- The lanes of the bus keep a flag of the bus. -/
theorem laneFlag_and_laneFlags {w lane : Nat} (hw : w ≤ 8) (hlane : lane < w) :
    laneFlag lane &&& laneFlags w = laneFlag lane := by
  have all : ∀ w ≤ 8, ∀ lane < w, laneFlag lane &&& laneFlags w = laneFlag lane := by decide
  exact all w hw lane hlane

end NetBoard
