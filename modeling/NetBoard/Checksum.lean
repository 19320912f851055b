/-
  NetBoard.Checksum
  ─────────────────
  **THE INTERNET CHECKSUM.**

  Ones' complement sum of the big-endian 16-bit words of an octet string, an
  odd last octet counting as the high half of a word.  The sum is kept in an
  accumulator that is folded as it grows, so that it can be fed in pieces of
  any length; `plainSum` sums first and folds once.

  Main definitions:

      Checksum           — accumulator and the octet that waits for its partner
      Checksum.sum       — the folded sum of all octets fed so far
      checksum           — the complement over a whole octet string
      echoReplyChecksum  — the checksum of an echo reply from that of its request
-/
import NetBoard.Bytes

namespace NetBoard

/-! ## §1. Folding. -/

/-- Fold a 32-bit accumulator into a 16-bit ones' complement sum. -/
def foldCarries (word : UInt32) : UInt16 :=
  let sum := (word >>> 16) + (word &&& 0xffff)
  (sum >>> 16).toUInt16 + sum.toUInt16

/-- The octets that `plainSum` takes at a time. -/
def plainChunk : Nat := 32

/-- Add the words of `bs` to a 32-bit accumulator, an odd last octet as a high half. -/
def addWords (acc : UInt32) : Bytes → UInt32
  | hi :: lo :: rest => addWords (acc + (hi.toUInt32 <<< 8 ||| lo.toUInt32)) rest
  | [hi] => acc + hi.toUInt32 <<< 8
  | [] => acc

/-- Sum all words in a 32-bit accumulator, chunk by chunk, and fold once at the
end.  The accumulator holds the words of any string of at most 131074 octets. -/
def plainSum (bs : Bytes) : UInt16 := foldCarries (go 0 bs)
where
  go (acc : UInt32) (bs : Bytes) : UInt32 :=
    if plainChunk ≤ bs.length then
      go (addWords acc (bs.take plainChunk)) (bs.drop plainChunk)
    else addWords acc bs
  termination_by bs.length
  decreasing_by
    rw [List.length_drop]
    simp only [plainChunk] at *
    omega

/-! ## §2. The running sum. -/

/-- A sum in progress. -/
structure Checksum where
  /-- The folded sum of the complete words. -/
  acc : Nat := 0
  /-- An octet whose partner has not been fed yet. -/
  odd : Option UInt8 := none
  deriving Repr, DecidableEq, Inhabited

namespace Checksum

/-- Add one word and fold at once: the accumulator never exceeds 16 bits. -/
def addWord (acc : Nat) (hi lo : UInt8) : Nat :=
  -- the carry out of 16 bits comes back in at the bottom
  let s := acc + (hi.toNat * 256 + lo.toNat)
  if s > 0xffff then s % 0x10000 + s / 0x10000 else s

/-- Feed whole words, and keep a last octet without partner. -/
def feedWords (acc : Nat) : Bytes → Checksum
  | hi :: lo :: rest => feedWords (addWord acc hi lo) rest
  | [hi] => ⟨acc, some hi⟩
  | [] => ⟨acc, none⟩

/-- Feed octets; the first one completes a word begun earlier. -/
def update (c : Checksum) (bs : Bytes) : Checksum :=
  match c.odd, bs with
  | none, bs => feedWords c.acc bs
  | some _, [] => c
  | some hi, lo :: rest => feedWords (addWord c.acc hi lo) rest

/-- The sum of everything fed so far, a waiting octet as a high half. -/
def sum (c : Checksum) : UInt16 :=
  let s := c.acc + (c.odd.map fun hi => hi.toNat * 256).getD 0
  UInt16.ofNat (if s > 0xffff then s % 0x10000 + s / 0x10000 else s)

/-- The complement of the sum: zero if the octets carried a valid checksum. -/
def finalize (c : Checksum) : UInt16 := ~~~c.sum

@[simp] theorem update_nil (c : Checksum) : c.update [] = c := by
  obtain ⟨acc, odd⟩ := c
  cases odd <;> rfl

end Checksum

/-! ## §3. Whole strings. -/

/-- The checksum of a string, or zero if it carries a valid one. -/
def checksum (bs : Bytes) : UInt16 := (({} : Checksum).update bs).finalize

/-- The checksum of a string whose own checksum field, at `pos`, is skipped: two
zeros are fed in its place.  A field that does not lie inside is no field. -/
def checksumSkipping (bs : Bytes) (pos : Nat) : UInt16 :=
  if pos + 2 ≤ bs.length then
    let before := ({} : Checksum).update (bs.take pos)
    ((before.update [0, 0]).update (bs.drop (pos + 2))).finalize
  else checksum bs

/-- The checksum of an echo reply, from the checksum of its request: only the
type changes, from 8 to 0, so 0x0800 is subtracted from the complemented sum. -/
def echoReplyChecksum (request : UInt16) : UInt16 :=
  ~~~foldCarries ((~~~request).toUInt32 + (~~~(0x0800 : UInt16)).toUInt32)

end NetBoard
