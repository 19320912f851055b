/-
  NetBoard.Proofs.Checked.Sums
  ────────────────────────────
  **CHECKSUMS, CHECKED.**

  The accumulator of the Internet checksum is folded whenever it leaves
  sixteen bits, so it never leaves thirty-two, however long the octets are and
  in whatever pieces they come.  The table of the frame check sequence has an
  entry for each octet.

  Main statements:

      Checksum.update!_eq                  — any piece, fed to a folded sum
      checksum!_eq, checksumSkipping!_eq   — the checksum of any octets
      plainSum!_eq                         — words summed first, up to 131074 octets
      echoReplyChecksum!_eq                — the one derived from a request
      Crc32.append!_eq, Crc32.valid!_eq    — the check sequence of a frame
-/
import NetBoard.Proofs.Checked.Machine
import NetBoard.Crc32
import NetBoard.Proofs.Checksum

namespace NetBoard

open scoped Power

open Checked

/-! ## §1. The Internet checksum. -/

namespace Checksum

/-- One word on the accumulator, and its carry back in: two sums of 32 bits. -/
def addWord! (acc : Nat) (hi lo : UInt8) : Checked Nat := do
  let s ← add 32 acc (hi.toNat * 256 + lo.toNat)
  if s > 0xffff then add 32 (s % 0x10000) (s / 0x10000) else return s

/-- Two octets are a word; a last single one waits for its other half. -/
def feedWords! (acc : Nat) : Bytes → Checked Checksum
  | hi :: lo :: rest => do feedWords! (← addWord! acc hi lo) rest
  | [hi] => return ⟨acc, some hi⟩
  | [] => return ⟨acc, none⟩

/-- The octet that waits makes a word with the first one of the next piece. -/
def update! (c : Checksum) (bs : Bytes) : Checked Checksum :=
  match c.odd, bs with
  | none, bs => feedWords! c.acc bs
  | some _, [] => return c
  | some hi, lo :: rest => do feedWords! (← addWord! c.acc hi lo) rest

/-- An octet that still waits is the upper half of a last word. -/
def sum! (c : Checksum) : Checked UInt16 := do
  let s ← add 32 c.acc ((c.odd.map fun hi => hi.toNat * 256).getD 0)
  if s > 0xffff then return UInt16.ofNat (← add 32 (s % 0x10000) (s / 0x10000))
  else return UInt16.ofNat s

/-- A folded accumulator has room for any word, and is folded again afterwards. -/
theorem addWord!_eq {acc : Nat} (hacc : acc ≤ 0xffff) (hi lo : UInt8) :
    addWord! acc hi lo = .ok (addWord acc hi lo) ∧ addWord acc hi lo ≤ 0xffff := by
  have hhi := hi.toNat_lt
  have hlo := lo.toNat_lt
  unfold addWord! addWord
  rw [add_ok (by omega), ok_bind]
  dsimp only
  split
  · rw [add_ok (by omega)]
    exact ⟨rfl, by omega⟩
  · exact ⟨rfl, by omega⟩

/-- So it has room for any number of words. -/
theorem feedWords!_eq {acc : Nat} (hacc : acc ≤ 0xffff) (bs : Bytes) :
    feedWords! acc bs = .ok (feedWords acc bs) ∧ (feedWords acc bs).acc ≤ 0xffff := by
  induction acc, bs using feedWords.induct with
  | case1 acc hi lo rest ih =>
    obtain ⟨hok, hnext⟩ := addWord!_eq hacc hi lo
    rw [feedWords!, hok, ok_bind, feedWords]
    exact ih hnext
  | case2 acc hi => exact ⟨rfl, hacc⟩
  | case3 acc => exact ⟨rfl, hacc⟩

/-- A piece of any length is fed, whatever was fed before it. -/
theorem update!_eq {c : Checksum} (hacc : c.acc ≤ 0xffff) (bs : Bytes) :
    update! c bs = .ok (c.update bs) ∧ (c.update bs).acc ≤ 0xffff := by
  obtain ⟨acc, odd⟩ := c
  cases odd with
  | none => exact feedWords!_eq hacc bs
  | some hi =>
    cases bs with
    | nil => exact ⟨rfl, hacc⟩
    | cons lo rest =>
      obtain ⟨hok, hnext⟩ := addWord!_eq hacc hi lo
      show (addWord! acc hi lo >>= fun acc => feedWords! acc rest) = _ ∧ _
      rw [hok, ok_bind]
      exact feedWords!_eq hnext rest

/-- A folded accumulator has room for the last word too. -/
theorem sum!_eq {c : Checksum} (hc : c.acc ≤ 0xffff) : c.sum! = .ok c.sum := by
  have hodd : (c.odd.map fun hi => hi.toNat * 256).getD 0 ≤ 0xff00 := by
    cases c.odd with
    | none => decide
    | some hi =>
      have hlt := hi.toNat_lt
      show hi.toNat * 256 ≤ _
      omega
  unfold sum! sum
  rw [add_ok (by omega), ok_bind]
  dsimp only
  split
  · rw [add_ok (by omega)]
    rfl
  · rfl

end Checksum

/-- All octets are fed to a fresh accumulator. -/
def checksum! (bs : Bytes) : Checked UInt16 := do
  let c ← ({} : Checksum).update! bs
  return ~~~(← c.sum!)

/-- Zeros are fed in the place of the checksum itself. -/
def checksumSkipping! (bs : Bytes) (pos : Nat) : Checked UInt16 := do
  if pos + 2 ≤ bs.length then
    let c ← ({} : Checksum).update! (← slice bs 0 pos)
    let c ← c.update! [0, 0]
    let c ← c.update! (← slice bs (pos + 2) bs.length)
    return ~~~(← c.sum!)
  else checksum! bs

/-- The upper half is added to the lower one in 32 bits, and the carry of that in 16. -/
def foldCarries! (word : UInt32) : Checked UInt16 := do
  discard (add 32 (word >>> 16).toNat (word &&& 0xffff).toNat)
  let sum := (word >>> 16) + (word &&& 0xffff)
  discard (add 16 (sum >>> 16).toUInt16.toNat sum.toUInt16.toNat)
  return (sum >>> 16).toUInt16 + sum.toUInt16

/-- Words are added without folding, so each sum has to fit 32 bits. -/
def addWords! (acc : UInt32) : Bytes → Checked UInt32
  | hi :: lo :: rest => do
    let word := hi.toUInt32 <<< 8 ||| lo.toUInt32
    discard (add 32 acc.toNat word.toNat)
    addWords! (acc + word) rest
  | [hi] => do
    let word := hi.toUInt32 <<< 8
    discard (add 32 acc.toNat word.toNat)
    return acc + word
  | [] => return acc

/-- Chunks are summed one behind the other, and folded when all of them are. -/
def plainSum! (bs : Bytes) : Checked UInt16 := do foldCarries! (← go 0 bs)
where
  go (acc : UInt32) (bs : Bytes) : Checked UInt32 :=
    if plainChunk ≤ bs.length then do
      let acc ← addWords! acc (← slice bs 0 plainChunk)
      go acc (bs.drop plainChunk)
    else addWords! acc bs
  termination_by bs.length
  decreasing_by
    rw [List.length_drop]
    simp only [plainChunk] at *
    omega

/-- The complements of the checksum and of the type are added in 32 bits and folded. -/
def echoReplyChecksum! (request : UInt16) : Checked UInt16 := do
  discard (add 32 (~~~request).toNat (~~~(0x0800 : UInt16)).toNat)
  return ~~~(← foldCarries! ((~~~request).toUInt32 + (~~~(0x0800 : UInt16)).toUInt32))

/-- Octets of any length have a checksum. -/
theorem checksum!_eq (bs : Bytes) : checksum! bs = .ok (checksum bs) := by
  obtain ⟨hok, hacc⟩ := Checksum.update!_eq (c := {}) (Nat.zero_le 0xffff) bs
  rw [checksum!, hok, ok_bind, Checksum.sum!_eq hacc]
  rfl

/-- A checksum in the octets is cut out inside of them; one outside is not cut out. -/
theorem checksumSkipping!_eq (bs : Bytes) (pos : Nat) :
    checksumSkipping! bs pos = .ok (checksumSkipping bs pos) := by
  unfold checksumSkipping! checksumSkipping
  split
  · next h =>
    obtain ⟨hbefore, hacc⟩ := Checksum.update!_eq (c := {}) (Nat.zero_le 0xffff) (bs.take pos)
    obtain ⟨hzeros, hacc⟩ := Checksum.update!_eq hacc [0, 0]
    obtain ⟨hafter, hacc⟩ := Checksum.update!_eq hacc (bs.drop (pos + 2))
    rw [slice_ok (Nat.zero_le _) (by omega), ok_bind, List.drop_zero, hbefore, ok_bind, hzeros,
      ok_bind, slice_ok h (Nat.le_refl _), ok_bind, List.take_length, hafter, ok_bind,
      Checksum.sum!_eq hacc]
    rfl
  · exact checksum!_eq bs

/-- Every word of 32 bits can be folded. -/
theorem foldCarries!_eq (word : UInt32) : foldCarries! word = .ok (foldCarries word) := by
  have hhigh : (word >>> 16).toNat = word.toNat / 65536 := by
    rw [UInt32.toNat_shiftRight, Nat.shiftRight_eq_div_pow]
    rfl
  have hlow : (word &&& 0xffff).toNat = word.toNat % 65536 := by
    rw [UInt32.toNat_and, show (0xffff : UInt32).toNat = 2 ^ 16 - 1 from rfl,
      Nat.and_two_pow_sub_one_eq_mod]
  have hlt := word.toNat_lt
  have hsum := toNat_add_halves word
  unfold foldCarries! foldCarries
  rw [add_ok (by omega)]
  dsimp only
  rw [add_ok]
  · rfl
  · -- one carry at most, and then the low half is not full
    rw [UInt32.toNat_toUInt16, UInt32.toNat_toUInt16, UInt32.toNat_shiftRight,
      Nat.shiftRight_eq_div_pow, hsum]
    have hle : word.toNat / 65536 + word.toNat % 65536 ≤ 131070 := by omega
    generalize word.toNat / 65536 + word.toNat % 65536 = n at hle
    show n / 65536 % 65536 + n % 65536 < 65536
    omega

/-- The sums of the words fit if the last one of them does. -/
theorem addWords!_eq {acc : UInt32} {bs : Bytes} (hfits : acc.toNat + wordSum bs < 2 ^ (32 : Nat)) :
    addWords! acc bs = .ok (addWords acc bs) := by
  induction acc, bs using addWords.induct with
  | case1 acc hi lo rest ih =>
    rw [wordSum, ← toNat_word] at hfits
    rw [addWords!, add_ok (by omega)]
    refine ih ?_
    rw [UInt32.toNat_add]
    omega
  | case2 acc hi =>
    rw [wordSum, ← toNat_shifted] at hfits
    rw [addWords!, add_ok hfits]
    rfl
  | case3 acc => rfl

/-- What bounds the sum of all words bounds it up to the end of each chunk. -/
theorem plainSum!_go {acc : UInt32} {bs : Bytes} (hfits : acc.toNat + wordSum bs < 2 ^ (32 : Nat)) :
    plainSum!.go acc bs = .ok (plainSum.go acc bs) := by
  induction acc, bs using plainSum.go.induct with
  | case1 acc bs hlong ih =>
    have heven : (bs.take plainChunk).length % 2 = 0 := by
      rw [List.length_take, Nat.min_eq_left hlong]
      rfl
    -- the words of the chunk, then those behind it
    have hparts : wordSum (bs.take plainChunk) + wordSum (bs.drop plainChunk) = wordSum bs := by
      rw [← wordSum_append heven, List.take_append_drop]
    have hchunkFits : acc.toNat + wordSum (bs.take plainChunk) < 2 ^ 32 := by omega
    have hchunk := addWords!_eq hchunkFits
    have hacc := toNat_addWords hchunkFits
    rw [plainSum!.go, plainSum.go, if_pos hlong, if_pos hlong, slice_ok (Nat.zero_le _) hlong,
      ok_bind, List.drop_zero, hchunk, ok_bind]
    exact ih (by omega)
  | case2 acc bs hshort =>
    rw [plainSum!.go, plainSum.go, if_neg hshort, if_neg hshort]
    exact addWords!_eq hfits

/-- Words that are summed first fit up to this length. -/
theorem plainSum!_eq {bs : Bytes} (hlen : bs.length ≤ 131074) :
    plainSum! bs = .ok (plainSum bs) := by
  have hfits : (0 : UInt32).toNat + wordSum bs < 2 ^ 32 := by
    rw [UInt32.toNat_zero, Nat.zero_add]
    exact wordSum_fits hlen
  rw [plainSum!, plainSum!_go hfits, ok_bind, foldCarries!_eq, plainSum]

/-- Two words of 16 bits cannot leave 32. -/
theorem echoReplyChecksum!_eq (request : UInt16) :
    echoReplyChecksum! request = .ok (echoReplyChecksum request) := by
  have hrequest := (~~~request).toNat_lt
  have hbase := (~~~(0x0800 : UInt16)).toNat_lt
  rw [echoReplyChecksum!, add_ok (by omega), foldCarries!_eq]
  rfl

/-! ## §2. The frame check sequence. -/

namespace Crc32

/-- One octet on the register: the table is read at a place of eight bits. -/
def tableStep! (r : UInt32) (o : UInt8) : Checked UInt32 := do
  let entry ← index table.toList ((r ^^^ o.toUInt32) &&& 0xff).toNat
  return entry ^^^ (r >>> 8)

/-- The octets of a piece, one behind the other. -/
def update! (c : Crc32) (bs : Bytes) : Checked Crc32 := do
  return ⟨← bs.foldlM tableStep! c.register⟩

/-- The check sequence is written behind the frame, its least significant octet first. -/
def append! (frame : Bytes) : Checked Bytes := do
  let c ← ({} : Crc32).update! frame
  return frame ++ Bytes.ofNatLE length c.value.toNat

/-- Octets that have no room for a check sequence have no valid one. -/
def valid! (frame : Bytes) : Checked Bool := do
  if length ≤ frame.length then return (← ({} : Crc32).update! frame).check
  else return false

/-- The table has an entry at every place of eight bits. -/
theorem tableStep!_eq (r : UInt32) (o : UInt8) : tableStep! r o = .ok (tableStep r o) := by
  have hplace : ((r ^^^ o.toUInt32) &&& 0xff).toNat = (r.toUInt8 ^^^ o).toNat := by
    rw [UInt32.toNat_and, show (0xff : UInt32).toNat = 2 ^ 8 - 1 from rfl,
      Nat.and_two_pow_sub_one_eq_mod, UInt32.toNat_xor, Nat.xor_mod_two_pow, UInt8.toNat_xor,
      UInt32.toNat_toUInt8, UInt8.toNat_toUInt32, Nat.mod_eq_of_lt o.toNat_lt]
  have hentry : table.toList[((r ^^^ o.toUInt32) &&& 0xff).toNat]? =
      some (table.get (r.toUInt8 ^^^ o).toFin) := by
    rw [hplace, Vector.getElem?_toList, Vector.getElem?_eq_getElem (r.toUInt8 ^^^ o).toNat_lt]
    rfl
  rw [tableStep!, index_ok hentry]
  rfl

/-- Any piece is fed, whatever was fed before it. -/
theorem update!_eq (c : Crc32) (bs : Bytes) : c.update! bs = .ok (c.update bs) := by
  have hall : bs.foldlM tableStep! c.register = .ok (bs.foldl tableStep c.register) :=
    (foldlM_ok (P := fun _ => True) (fun o _ r _ => ⟨tableStep!_eq r o, trivial⟩) trivial).1
  rw [update!, hall]
  rfl

/-- Any frame gets a check sequence. -/
theorem append!_eq (frame : Bytes) : append! frame = .ok (append frame) := by
  rw [append!, update!_eq]
  rfl

/-- Any octets are checked, also those that are too short. -/
theorem valid!_eq (frame : Bytes) : valid! frame = .ok (valid frame) := by
  unfold valid! valid
  rw [update!_eq]
  by_cases hlong : length ≤ frame.length
  · rw [if_pos hlong, decide_eq_true hlong]
    rfl
  · rw [if_neg hlong, decide_eq_false hlong]
    rfl

end Crc32
end NetBoard
