/-
  NetBoard.Proofs.Checksum
  ────────────────────────
  **WHAT A CHECKSUM OF ZERO SAYS.**

  The folded accumulator is the residue of the plain sum of all words modulo
  65535, where a sum that is not zero has the residue 65535 in the place of 0.
  A string is therefore valid exactly if the sum of its words is a multiple of
  65535 other than zero, and a checksum may be stored without another fold.

  Main statements:

      Checksum.update_append    — pieces of any length add up
      checksum_eq_residue       — the running sum is the residue of the word sum
      checksumSkipping_eq       — a skipped field counts as zeros
      checksum_eq_zero_iff      — which strings are valid
      checksum_sealed           — a string that carries its checksum is valid
      toNat_plainSum            — summing first makes no difference, up to 131074 octets
      toNat_echoReplyChecksum   — the checksum of a reply, by cases of the request's
-/
import NetBoard.Checksum

namespace NetBoard

open scoped Power

/-! ## §1. Residues. -/

/-- The sum of the big-endian words; an odd last octet is a high half. -/
def wordSum : Bytes → Nat
  | hi :: lo :: rest => hi.toNat * 256 + lo.toNat + wordSum rest
  | [hi] => hi.toNat * 256
  | [] => 0

/-- What folding leaves of a sum: only the sum 0 has the residue 0. -/
def residue (s : Nat) : Nat := if s = 0 then 0 else (s - 1) % 65535 + 1

@[simp] theorem residue_zero : residue 0 = 0 := rfl

theorem residue_le (s : Nat) : residue s ≤ 65535 := by
  unfold residue
  split <;> omega

/-- A sum may be folded before another one is added. -/
theorem residue_residue_add (s t : Nat) : residue (residue s + t) = residue (s + t) := by
  unfold residue
  by_cases hs : s = 0
  · simp [hs]
  · rw [if_neg hs, if_neg (by omega), if_neg (by omega)]
    omega

theorem residue_eq_iff {s : Nat} : residue s = 65535 ↔ s ≠ 0 ∧ s % 65535 = 0 := by
  unfold residue
  split <;> omega

/-- One fold of 17 bits. -/
theorem fold_eq_residue {s : Nat} (h : s ≤ 131070) :
    (if s > 0xffff then s % 0x10000 + s / 0x10000 else s) = residue s := by
  unfold residue
  split <;> split <;> omega

/-! ## §2. The running sum. -/

namespace Checksum

/-- The octet that waits at the end of one piece is completed by the next piece. -/
theorem update_feedWords (acc : Nat) (xs ys : Bytes) :
    (feedWords acc xs).update ys = feedWords acc (xs ++ ys) := by
  induction acc, xs using feedWords.induct with
  | case1 acc hi lo rest ih =>
    rw [List.cons_append, List.cons_append, feedWords, feedWords, ih]
  | case2 acc hi =>
    cases ys with
    | nil => rfl
    | cons lo rest => rfl
  | case3 acc => rfl

/-- Two pieces are fed as their concatenation. -/
theorem update_append (c : Checksum) (xs ys : Bytes) :
    (c.update xs).update ys = c.update (xs ++ ys) := by
  obtain ⟨acc, odd⟩ := c
  cases odd with
  | none => exact update_feedWords acc xs ys
  | some hi =>
    cases xs with
    | nil => rfl
    | cons lo rest => exact update_feedWords (addWord acc hi lo) rest ys

theorem addWord_residue (s : Nat) (hi lo : UInt8) :
    addWord (residue s) hi lo = residue (s + (hi.toNat * 256 + lo.toNat)) := by
  have hs := residue_le s
  have hhi := hi.toNat_lt
  have hlo := lo.toNat_lt
  unfold addWord
  rw [fold_eq_residue (by omega), residue_residue_add]

/-- Feeding words adds their sum. -/
theorem sum_feedWords (s : Nat) (bs : Bytes) :
    (feedWords (residue s) bs).sum = UInt16.ofNat (residue (s + wordSum bs)) := by
  induction bs using wordSum.induct generalizing s with
  | case1 hi lo rest ih =>
    rw [feedWords, addWord_residue, ih, wordSum, Nat.add_assoc]
  | case2 hi =>
    -- an odd octet at the end is the high half of a word
    have hs := residue_le s
    have hhi := hi.toNat_lt
    have hfold := fold_eq_residue (show residue s + hi.toNat * 256 ≤ 131070 by omega)
    rw [wordSum, ← residue_residue_add, ← hfold]
    rfl
  | case3 =>
    have hs := residue_le s
    have hfold := fold_eq_residue (show residue s + 0 ≤ 131070 by omega)
    rw [wordSum, ← residue_residue_add, ← hfold]
    rfl

end Checksum

/-- The checksum is the complement of the residue of all words. -/
theorem checksum_eq_residue (bs : Bytes) :
    checksum bs = ~~~UInt16.ofNat (residue (wordSum bs)) := by
  have h := Checksum.sum_feedWords 0 bs
  rw [residue_zero, Nat.zero_add] at h
  show ~~~(Checksum.feedWords 0 bs).sum = _
  rw [h]

theorem toNat_checksum (bs : Bytes) :
    (checksum bs).toNat = 65535 - residue (wordSum bs) := by
  have hle := residue_le (wordSum bs)
  rw [checksum_eq_residue, UInt16.toNat_not, UInt16.toNat_ofNat']
  show 65536 - 1 - residue (wordSum bs) % 65536 = _
  omega

/-- A string is valid if its words sum up to a multiple of 65535 other than zero. -/
theorem checksum_eq_zero_iff (bs : Bytes) :
    checksum bs = 0 ↔ wordSum bs ≠ 0 ∧ wordSum bs % 65535 = 0 := by
  have hle := residue_le (wordSum bs)
  rw [← residue_eq_iff, ← UInt16.toNat_inj, toNat_checksum]
  show 65535 - residue (wordSum bs) = 0 ↔ _
  omega

/-! ## §3. Strings that carry their checksum. -/

/-- The octets with the word at `pos` set to zero; a position whose word does
not lie inside leaves them as they are. -/
def blankWord (bs : Bytes) (pos : Nat) : Bytes :=
  if pos + 2 ≤ bs.length then bs.take pos ++ [0, 0] ++ bs.drop (pos + 2) else bs

/-- Feeding zeros in the place of a field is feeding the octets without it. -/
theorem checksumSkipping_eq (bs : Bytes) (pos : Nat) :
    checksumSkipping bs pos = checksum (blankWord bs pos) := by
  unfold checksumSkipping blankWord checksum
  by_cases hpos : pos + 2 ≤ bs.length
  · rw [if_pos hpos, if_pos hpos]
    dsimp only
    rw [Checksum.update_append, Checksum.update_append, ← List.append_assoc]
  · rw [if_neg hpos, if_neg hpos]

/-- Words of even strings add up. -/
theorem wordSum_append {xs : Bytes} (h : xs.length % 2 = 0) (ys : Bytes) :
    wordSum (xs ++ ys) = wordSum xs + wordSum ys := by
  induction xs using wordSum.induct with
  | case1 hi lo rest ih =>
    have hrest : rest.length % 2 = 0 := by
      simp only [List.length_cons] at h
      omega
    simp only [List.cons_append, wordSum]
    rw [ih hrest]
    omega
  | case2 hi => simp at h
  | case3 => simp [wordSum]

/-- A word counts with its value. -/
theorem wordSum_ofNatBE {v : Nat} (h : v < 65536) (rest : Bytes) :
    wordSum (Bytes.ofNatBE 2 v ++ rest) = v + wordSum rest := by
  show wordSum (UInt8.ofNat (v / 256 ^ 1) :: UInt8.ofNat (v / 256 ^ 0) :: rest) = _
  simp only [wordSum, UInt8.toNat_ofNat']
  omega

/-- Only zeros sum up to zero. -/
theorem wordSum_eq_zero_iff {bs : Bytes} : wordSum bs = 0 ↔ ∀ b ∈ bs, b = 0 := by
  have hzero : ∀ b : UInt8, b.toNat = 0 ↔ b = 0 := fun b => by rw [← UInt8.toNat_inj]; rfl
  induction bs using wordSum.induct with
  | case1 hi lo rest ih =>
    rw [List.forall_mem_cons, List.forall_mem_cons, ← hzero, ← hzero, wordSum]
    constructor
    · intro hsum
      exact ⟨by omega, by omega, ih.mp (by omega)⟩
    · rintro ⟨hhi, hlo, hrest⟩
      have hsum := ih.mpr hrest
      omega
  | case2 hi =>
    rw [List.forall_mem_singleton, ← hzero, wordSum]
    omega
  | case3 => simp [wordSum]

theorem wordSum_ne_zero_iff {bs : Bytes} : wordSum bs ≠ 0 ↔ ∃ b ∈ bs, b ≠ 0 := by
  rw [Ne, wordSum_eq_zero_iff]
  simp

/-- With its checksum stored at an even place a string is valid. -/
theorem checksum_sealed {bs : Bytes} {pos : Nat} (heven : pos % 2 = 0)
    (hpos : pos + 2 ≤ bs.length) :
    checksum (bs.take pos ++ Bytes.ofNatBE 2 (checksumSkipping bs pos).toNat ++
      bs.drop (pos + 2)) = 0 := by
  have htake : (bs.take pos).length % 2 = 0 := by
    rw [List.length_take]
    omega
  have hblank : wordSum (blankWord bs pos) =
      wordSum (bs.take pos) + wordSum (bs.drop (pos + 2)) := by
    unfold blankWord
    rw [if_pos hpos, List.append_assoc, wordSum_append htake]
    simp [wordSum]
  have hc := toNat_checksum (blankWord bs pos)
  have hres := residue_le (wordSum (blankWord bs pos))
  rw [checksum_eq_zero_iff, List.append_assoc, wordSum_append htake, checksumSkipping_eq,
    wordSum_ofNatBE (by omega), hc, hblank]
  -- the sum and its residue differ by a multiple of 65535
  unfold residue
  split <;> omega

/-! ## §4. Summing first. -/

/-- The two halves of an accumulator, added without a carry out of it. -/
theorem toNat_add_halves (word : UInt32) :
    ((word >>> 16) + (word &&& 0xffff)).toNat = word.toNat / 65536 + word.toNat % 65536 := by
  have hlt := word.toNat_lt
  rw [UInt32.toNat_add, UInt32.toNat_shiftRight, UInt32.toNat_and, Nat.shiftRight_eq_div_pow]
  show (word.toNat / 65536 + (word.toNat &&& 65535)) % 2 ^ 32 = _
  rw [show 65535 = 2 ^ 16 - 1 from rfl, Nat.and_two_pow_sub_one_eq_mod]
  omega

/-- Two folds are enough for 32 bits. -/
theorem toNat_foldCarries (word : UInt32) : (foldCarries word).toNat = residue word.toNat := by
  have hlt := word.toNat_lt
  -- the halves are congruent to the number, and zero only together
  have hhalves : residue (word.toNat / 65536 + word.toNat % 65536) = residue word.toNat := by
    unfold residue
    split <;> split <;> omega
  unfold foldCarries
  dsimp only
  rw [UInt16.toNat_add, UInt32.toNat_toUInt16, UInt32.toNat_toUInt16, UInt32.toNat_shiftRight,
    Nat.shiftRight_eq_div_pow, toNat_add_halves, ← hhalves]
  have hle : word.toNat / 65536 + word.toNat % 65536 ≤ 131070 := by omega
  generalize word.toNat / 65536 + word.toNat % 65536 = sum at hle
  rw [← fold_eq_residue hle]
  show (sum / 65536 % 65536 + sum % 65536) % 65536 = _
  split <;> omega

/-- The value of a word in an accumulator. -/
theorem toNat_word (hi lo : UInt8) :
    (hi.toUInt32 <<< 8 ||| lo.toUInt32).toNat = hi.toNat * 256 + lo.toNat := by
  have hhi := hi.toNat_lt
  have hlo := lo.toNat_lt
  have hshift : hi.toNat <<< 8 % 2 ^ 32 = 2 ^ 8 * hi.toNat := by
    rw [Nat.shiftLeft_eq]
    omega
  rw [UInt32.toNat_or, UInt32.toNat_shiftLeft, UInt8.toNat_toUInt32, UInt8.toNat_toUInt32]
  show hi.toNat <<< 8 % 2 ^ 32 ||| lo.toNat = _
  rw [hshift, ← Nat.two_pow_add_eq_or_of_lt hlo]
  omega

theorem toNat_shifted (hi : UInt8) : (hi.toUInt32 <<< 8).toNat = hi.toNat * 256 := by
  simpa using toNat_word hi 0

/-- While the sum of the words fits, the accumulator holds it. -/
theorem toNat_addWords {acc : UInt32} {bs : Bytes} (hfits : acc.toNat + wordSum bs < 2 ^ (32 : Nat)) :
    (addWords acc bs).toNat = acc.toNat + wordSum bs := by
  induction acc, bs using addWords.induct with
  | case1 acc hi lo rest ih =>
    have hword := toNat_word hi lo
    rw [wordSum] at hfits
    have hacc : (acc + (hi.toUInt32 <<< 8 ||| lo.toUInt32)).toNat =
        acc.toNat + (hi.toNat * 256 + lo.toNat) := by
      rw [UInt32.toNat_add, hword]
      omega
    rw [addWords, ih (by omega), hacc, wordSum]
    omega
  | case2 acc hi =>
    rw [wordSum] at hfits ⊢
    rw [addWords, UInt32.toNat_add, toNat_shifted]
    omega
  | case3 acc => rfl

/-- Chunks end between two words, so that they add up. -/
theorem addWords_append (acc : UInt32) {xs : Bytes} (heven : xs.length % 2 = 0) (ys : Bytes) :
    addWords (addWords acc xs) ys = addWords acc (xs ++ ys) := by
  induction acc, xs using addWords.induct with
  | case1 acc hi lo rest ih =>
    have hrest : rest.length % 2 = 0 := by
      simp only [List.length_cons] at heven
      omega
    rw [List.cons_append, List.cons_append, addWords, addWords, ih hrest]
  | case2 acc hi => simp at heven
  | case3 acc => rfl

/-- The chunks make no difference. -/
theorem plainSum_go (acc : UInt32) (bs : Bytes) : plainSum.go acc bs = addWords acc bs := by
  induction acc, bs using plainSum.go.induct with
  | case1 acc bs hlong ih =>
    have heven : (bs.take plainChunk).length % 2 = 0 := by
      rw [List.length_take, Nat.min_eq_left hlong]
      rfl
    rw [plainSum.go, if_pos hlong, ih, addWords_append acc heven, List.take_append_drop]
  | case2 acc bs hshort => rw [plainSum.go, if_neg hshort]

/-- A word is at most 65535. -/
theorem wordSum_le (bs : Bytes) : wordSum bs ≤ 65535 * ((bs.length + 1) / 2) := by
  induction bs using wordSum.induct with
  | case1 hi lo rest ih =>
    have hhi := hi.toNat_lt
    have hlo := lo.toNat_lt
    rw [wordSum, List.length_cons, List.length_cons]
    omega
  | case2 hi =>
    have hhi := hi.toNat_lt
    rw [wordSum, List.length_singleton]
    omega
  | case3 => simp [wordSum]

/-- The words of so many octets fit an accumulator of 32 bits. -/
theorem wordSum_fits {bs : Bytes} (hlen : bs.length ≤ 131074) : wordSum bs < 2 ^ (32 : Nat) := by
  have hle := wordSum_le bs
  omega

/-- Summed first and folded once, the words of a string that fits have the same residue. -/
theorem toNat_plainSum {bs : Bytes} (hlen : bs.length ≤ 131074) :
    (plainSum bs).toNat = residue (wordSum bs) := by
  have hacc : (addWords 0 bs).toNat = 0 + wordSum bs := by
    refine toNat_addWords ?_
    have hfits := wordSum_fits hlen
    show 0 + wordSum bs < _
    omega
  rw [plainSum, plainSum_go, toNat_foldCarries, hacc, Nat.zero_add]

/-! ## §5. Echo replies. -/

/-- The checksum of a reply is that of the request and 0x0800, around 0xffff. -/
theorem toNat_echoReplyChecksum (request : UInt16) :
    (echoReplyChecksum request).toNat =
      if request.toNat < 63487 then request.toNat + 2048 else request.toNat - 63487 := by
  have hlt := request.toNat_lt
  have hacc : ((~~~request).toUInt32 + (~~~(0x0800 : UInt16)).toUInt32).toNat =
      129022 - request.toNat := by
    rw [UInt32.toNat_add, UInt16.toNat_toUInt32, UInt16.toNat_toUInt32, UInt16.toNat_not]
    show (65536 - 1 - request.toNat + 63487) % 4294967296 = _
    omega
  unfold echoReplyChecksum
  rw [UInt16.toNat_not, toNat_foldCarries, hacc]
  show 65536 - 1 - residue _ = _
  unfold residue
  split <;> split <;> omega

end NetBoard
