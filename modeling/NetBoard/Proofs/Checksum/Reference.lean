/-
  NetBoard.Proofs.Checksum.Reference
  ──────────────────────────────────
  **ALL WAYS TO SUM COME TO THE SUM OF THE STANDARD.**

  The standard says what the ones' complement sum of a string is without
  saying how to come to it: a number of sixteen bits that is congruent to the
  sum of the words modulo 65535.  Zero is congruent to 65535, and only a string
  of zeros has the first of them.

  The running sum folds each carry as it comes, and keeps an octet without
  partner from one piece to the next; the plain sum adds up chunks of
  thirty-two octets and folds at the end.  Both come to that one number: the
  running sum of any length, in any pieces, the plain sum as long as its
  accumulator holds the words.  A field is skipped by feeding zeros for it, at
  whatever place it lies, also where it is split between two words.

  Main definitions:

      IsOnesSum   — the ones' complement sum, as the standard has it

  Main statements:

      isOnesSum_iff              — it is the residue of the words
      Checksum.foldl_update      — pieces are fed as what they make up
      checksum_meets_reference   — every way to sum comes to it
-/
import NetBoard.Proofs.Checked.Sums

namespace NetBoard

open Checked

/-! ## §1. The sum of the standard. -/

/-- The ones' complement sum of a string: zero of zeros, and of any other
string the number from 1 to 65535 that is congruent to the sum of its words. -/
def IsOnesSum (bs : Bytes) (v : Nat) : Prop :=
  ((∀ b ∈ bs, b = 0) → v = 0) ∧
    ((∃ b ∈ bs, b ≠ 0) → 1 ≤ v ∧ v ≤ 65535 ∧ v % 65535 = wordSum bs % 65535)

/-- There is one such number. -/
theorem isOnesSum_iff {bs : Bytes} {v : Nat} : IsOnesSum bs v ↔ v = residue (wordSum bs) := by
  unfold IsOnesSum
  rw [← wordSum_eq_zero_iff, ← wordSum_ne_zero_iff, residue]
  by_cases hsum : wordSum bs = 0
  · rw [if_pos hsum]
    exact ⟨fun h => h.1 hsum, fun h => ⟨fun _ => h, fun hne => absurd hsum hne⟩⟩
  · rw [if_neg hsum]
    constructor
    · rintro ⟨-, hother⟩
      have hrange := hother hsum
      omega
    · intro hv
      exact ⟨fun hzero => absurd hzero hsum, fun _ => by omega⟩

instance (bs : Bytes) (v : Nat) : Decidable (IsOnesSum bs v) :=
  decidable_of_iff (v = residue (wordSum bs)) isOnesSum_iff.symm

/-! ## §2. Pieces. -/

namespace Checksum

/-- Pieces are fed as what they make up. -/
theorem foldl_update (pieces : List Bytes) (c : Checksum) :
    pieces.foldl update c = c.update pieces.flatten := by
  induction pieces generalizing c with
  | nil => rw [List.foldl_nil, List.flatten_nil, update_nil]
  | cons piece pieces ih => rw [List.foldl_cons, ih, List.flatten_cons, update_append]

/-- No piece lets the accumulator overflow. -/
theorem foldlM_update! (pieces : List Bytes) :
    pieces.foldlM update! ({} : Checksum) = .ok (pieces.foldl update {}) ∧
      (pieces.foldl update ({} : Checksum)).acc ≤ 0xffff :=
  foldlM_ok (P := fun c : Checksum => c.acc ≤ 0xffff) (fun piece _ _ hacc => update!_eq hacc piece)
    (Nat.zero_le _)

/-- What has been fed to a fresh accumulator has the residue of its words. -/
theorem sum_update (bs : Bytes) :
    (({} : Checksum).update bs).sum = UInt16.ofNat (residue (wordSum bs)) := by
  have hsum := sum_feedWords 0 bs
  rwa [residue_zero, Nat.zero_add] at hsum

end Checksum

/-! ## §3. A word at a place. -/

/-- Two octets put at a place stand between what is before and what is after. -/
theorem set_word {bs : Bytes} {pos : Nat} (hpos : pos + 2 ≤ bs.length) (hi lo : UInt8) :
    (bs.set pos hi).set (pos + 1) lo = bs.take pos ++ [hi, lo] ++ bs.drop (pos + 2) := by
  obtain ⟨before, a, b, after, rfl, rfl⟩ : ∃ before a b after,
      bs = before ++ a :: b :: after ∧ pos = before.length := by
    have hfirst := List.drop_eq_getElem_cons (show pos < bs.length by omega)
    have hsecond := List.drop_eq_getElem_cons (show pos + 1 < bs.length by omega)
    refine ⟨bs.take pos, bs[pos], bs[pos + 1], bs.drop (pos + 1 + 1), ?_, ?_⟩
    · rw [← hsecond, ← hfirst, List.take_append_drop]
    · rw [List.length_take]
      omega
  simp

/-- The two octets of a word. -/
theorem ofNatBE_word (v : UInt16) : Bytes.ofNatBE 2 v.toNat = [(v >>> 8).toUInt8, v.toUInt8] := by
  have hhigh : UInt8.ofNat (v.toNat / 256 ^ 1) = (v >>> 8).toUInt8 := by
    rw [← UInt8.toNat_inj, UInt16.toNat_toUInt8, UInt16.toNat_shiftRight, Nat.shiftRight_eq_div_pow]
    rfl
  have hlow : UInt8.ofNat (v.toNat / 256 ^ 0) = v.toUInt8 := by
    rw [← UInt8.toNat_inj, UInt16.toNat_toUInt8, Nat.pow_zero, Nat.div_one]
    rfl
  show [_, _] = _
  rw [hhigh, hlow]

/-! ## §4. The checksum and its standard. -/

/-- **Every way to sum comes to the sum of the standard.**

Of any octets there is one ones' complement sum.  They may be fed in any
pieces, empty and odd ones among them: no addition overflows, and the running
sum is that one; its complement is the checksum.  Up to 131074 octets the plain
sum is that one too, without an overflow.  Skipping a field gives the checksum
of the octets with zeros in its place, and if the field lies at an even place,
the octets with this checksum in it have the checksum zero. -/
theorem checksum_meets_reference (bs : Bytes) :
    (∃ s : UInt16, (∀ v, IsOnesSum bs v ↔ v = s.toNat) ∧
      (∀ pieces : List Bytes, pieces.flatten = bs →
        ∃ c, pieces.foldlM Checksum.update! {} = .ok c ∧ c.sum! = .ok s ∧
          pieces.foldl Checksum.update {} = c ∧ c.sum = s ∧ c.finalize = checksum bs) ∧
      checksum bs = ~~~s ∧
      (bs.length ≤ 131074 → plainSum! bs = .ok s ∧ plainSum bs = s)) ∧
    (∀ pos, pos + 2 ≤ bs.length →
      let skipped := checksumSkipping bs pos
      skipped = checksum ((bs.set pos 0).set (pos + 1) 0) ∧
      (pos % 2 = 0 →
        checksum ((bs.set pos (skipped >>> 8).toUInt8).set (pos + 1) skipped.toUInt8) = 0)) := by
  have hle := residue_le (wordSum bs)
  have hvalue : (UInt16.ofNat (residue (wordSum bs))).toNat = residue (wordSum bs) := by
    rw [UInt16.toNat_ofNat']
    exact Nat.mod_eq_of_lt (by omega)
  refine ⟨⟨UInt16.ofNat (residue (wordSum bs)), ?_, ?_, checksum_eq_residue bs, ?_⟩, ?_⟩
  · intro v
    rw [isOnesSum_iff, hvalue]
  · rintro pieces rfl
    obtain ⟨hfed, hacc⟩ := Checksum.foldlM_update! pieces
    have hsum : (pieces.foldl Checksum.update ({} : Checksum)).sum =
        UInt16.ofNat (residue (wordSum pieces.flatten)) := by
      rw [Checksum.foldl_update, Checksum.sum_update]
    refine ⟨_, hfed, ?_, rfl, hsum, ?_⟩
    · rw [Checksum.sum!_eq hacc, hsum]
    · rw [Checksum.finalize, hsum, checksum_eq_residue]
  · intro hlen
    have hplain : plainSum bs = UInt16.ofNat (residue (wordSum bs)) := by
      rw [← UInt16.toNat_inj, hvalue, toNat_plainSum hlen]
    exact ⟨by rw [plainSum!_eq hlen, hplain], hplain⟩
  · intro pos hpos skipped
    constructor
    · rw [set_word hpos]
      show checksumSkipping bs pos = _
      rw [checksumSkipping_eq, blankWord, if_pos hpos]
    · intro heven
      rw [set_word hpos, ← ofNatBE_word]
      exact checksum_sealed heven hpos

/-- A header cut after an odd octet, inside of its checksum. -/
example : IsOnesSum [0x45, 0x00, 0x00, 0x73, 0xb8, 0x61]
    ([[0x45, 0x00, 0x00], [], [0x73, 0xb8], [0x61]].foldl Checksum.update {}).sum.toNat := by
  decide

end NetBoard
