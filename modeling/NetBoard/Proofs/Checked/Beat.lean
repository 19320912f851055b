/-
  NetBoard.Proofs.Checked.Beat
  ────────────────────────────
  **BUS WORDS, CHECKED.**

  The conversions between octets and bus words shift a word by whole lanes and
  cut octets into words.  On a bus of a supported width no shift reaches the
  size of the word, and the last word has an octet to put the flag on.

  Main statements:

      Beat.ofBytes!_eq     — octets into words
      Beat.toBytes!_eq     — words into octets, whatever words they are
      rotateFlags!_eq      — moving the flag of the last lane
      Stride.convert!_eq   — from one width to another
-/
import NetBoard.Proofs.Checked.Machine

namespace NetBoard

open scoped Power

open Checked

/-! ## §1. Masks and flags. -/

/-- Below eight lanes the mask is one less than a shifted one. -/
def lanesMask! (w : Nat) : Checked UInt64 := do
  if w < 8 then
    let n ← shift 64 (8 * w)
    return UInt64.ofNat (← sub (1 <<< n) 1)
  else return lanesMask w

/-- Below eight lanes this too is one less than a shifted one. -/
def laneFlags! (w : Nat) : Checked UInt8 := do
  if w < 8 then
    let n ← shift 16 w
    return UInt8.ofNat (← sub (1 <<< n) 1)
  else return laneFlags w

/-- The flags are shifted up, and those that leave the bus are shifted in from below. -/
def rotateFlags! (flags : UInt8) (n w : Nat) : Checked UInt8 := do
  let s ← rem n w
  if s = 0 then return flags
  else
    let up ← shift 16 s
    let down ← shift 16 (← sub w s)
    return UInt8.ofNat (flags.toNat <<< up ||| flags.toNat >>> down) &&& (← laneFlags! w)

/-- No shift is made from eight lanes on, so none reaches the size of the word. -/
theorem lanesMask!_eq (w : Nat) : lanesMask! w = .ok (lanesMask w) := by
  unfold lanesMask!
  split
  · next h =>
    rw [shift_ok (by omega), ok_bind, sub_ok (by rw [Nat.one_shiftLeft]; exact Nat.two_pow_pos _),
      ok_bind, Nat.one_shiftLeft, lanesMask, Nat.min_eq_left (Nat.le_of_lt h)]
    rfl
  · rfl

/-- The flags of all eight lanes are not shifted either. -/
theorem laneFlags!_eq (w : Nat) : laneFlags! w = .ok (laneFlags w) := by
  unfold laneFlags!
  split
  · next h =>
    rw [shift_ok (by omega), ok_bind, sub_ok (by rw [Nat.one_shiftLeft]; exact Nat.two_pow_pos _),
      ok_bind, Nat.one_shiftLeft, laneFlags, Nat.min_eq_left (Nat.le_of_lt h)]
    rfl
  · rfl

/-- On a supported width both shifts are by less than the width. -/
theorem rotateFlags!_eq {w : Nat} (hw : SupportedWidth w) (flags : UInt8) (n : Nat) :
    rotateFlags! flags n w = .ok (rotateFlags flags n w) := by
  have hlt : n % w < w := Nat.mod_lt n hw.pos
  have h8 : w ≤ 8 := hw.le_eight
  unfold rotateFlags! rotateFlags
  rw [rem_ok (Nat.ne_of_gt hw.pos), ok_bind]
  dsimp only
  by_cases hturn : n % w = 0
  · rw [if_pos hturn, if_pos hturn]
    rfl
  · rw [if_neg hturn, if_neg hturn, shift_ok (by omega), ok_bind,
      sub_ok (Nat.le_of_lt hlt), ok_bind, shift_ok (by omega),
      ok_bind, laneFlags!_eq]
    rfl

/-! ## §2. Words into octets. -/

namespace Beat

/-- The octet on one lane: the word is shifted down by the lanes below it. -/
def lane! (b : Beat) (i : Nat) : Checked UInt8 := do
  let n ← shift 64 (8 * i)
  return UInt8.ofNat (b.data.toNat >>> n)

/-- Eight less the zeros above the highest flag. -/
def validLanes! (w : Nat) (b : Beat) : Checked Nat :=
  if b.last && b.lastBe != 0 then do sub 8 (← sub 7 b.lastBe.toNat.log2)
  else return w

/-- The octets on the first lanes. -/
def lanes! (n : Nat) (b : Beat) : Checked Bytes := (List.range n).mapM b.lane!

/-- The octets of a bus word, as many as its flags say. -/
def octets! (w : Nat) (b : Beat) : Checked Bytes := do b.lanes! (← b.validLanes! w)

/-- The octets of a packet: what stands behind its last word is left out. -/
def toBytes! (w : Nat) (beats : List Beat) : Checked Bytes := do
  let parts ← (packet beats).mapM (octets! w)
  return parts.flatten

/-- The eighth lane is the last one that a shift reaches. -/
theorem lanes!_eq {n : Nat} (hn : n ≤ 8) (b : Beat) : b.lanes! n = .ok (b.lanes n) := by
  refine mapM_ok fun i hi => ?_
  have hlt : i < n := List.mem_range.1 hi
  rw [lane!, shift_ok (by omega)]
  rfl

/-- A flag is on one of eight lanes. -/
theorem log2_lastBe (b : Beat) : b.lastBe.toNat.log2 ≤ 7 := by
  by_cases hzero : b.lastBe.toNat = 0
  · rw [hzero]
    decide
  · have hlt := (Nat.log2_lt hzero (k := 8)).2 b.lastBe.toNat_lt
    omega

/-- Whatever the flags are, neither difference is below zero. -/
theorem validLanes!_eq (w : Nat) (b : Beat) : b.validLanes! w = .ok (b.validLanes w) := by
  have hlog := b.log2_lastBe
  unfold validLanes! validLanes
  split
  · rw [sub_ok hlog, ok_bind, sub_ok (Nat.sub_le_of_le_add (by omega))]
    congr 1
    omega
  · rfl

/-- No flags say more than eight octets. -/
theorem validLanes_le {w : Nat} (hw : w ≤ 8) (b : Beat) : b.validLanes w ≤ 8 := by
  have hlog := b.log2_lastBe
  unfold validLanes
  split <;> omega

/-- Any words are read, also those with flags that no bus would set. -/
theorem toBytes!_eq {w : Nat} (hw : w ≤ 8) (beats : List Beat) :
    toBytes! w beats = .ok (toBytes w beats) := by
  have hparts : (packet beats).mapM (octets! w) = .ok ((packet beats).map (octets w)) := by
    refine mapM_ok fun b _ => ?_
    rw [octets!, validLanes!_eq, ok_bind, lanes!_eq (validLanes_le hw b)]
    rfl
  rw [toBytes!, hparts, ok_bind, toBytes, List.flatMap_def]
  rfl

/-! ## §3. Octets into words. -/

/-- The octets of a word, each moved to its lane. -/
def word! (word : Bytes) : Checked UInt64 := do
  word.zipIdx.forM fun (_, i) => discard (shift 64 (8 * i))
  return UInt64.ofNat word.toNatLE

/-- A word inside of a packet. -/
def inner! (word : Bytes) : Checked Beat := do return { data := ← word! word }

/-- The last word of a packet, with the flag of its last octet. -/
def closing! (word : Bytes) : Checked Beat := do
  let data ← word! word
  let lane ← shift 8 (← sub word.length 1)
  return { data, last := true, lastBe := UInt8.ofNat (2 ^ lane) }

/-- Octets are cut into words of the width, and the last one closes the packet. -/
def ofBytes! (w : Nat) (bs : Bytes) : Checked (List Beat) := do
  require .division (w ≠ 0)
  let ws := bs.words w
  let body ← ws.dropLast.mapM inner!
  let close ← ws.getLast?.toList.mapM closing!
  return body ++ close

/-- Up to eight octets fit a word. -/
theorem word!_eq {word : Bytes} (h : word.length ≤ 8) :
    word! word = .ok (UInt64.ofNat word.toNatLE) := by
  have hlanes : word.zipIdx.forM (fun (_, i) => discard (shift 64 (8 * i))) = .ok () := by
    refine forM_ok fun (b, i) hi => ?_
    obtain ⟨-, hlt, -⟩ := List.mem_zipIdx hi
    show discard (shift 64 (8 * i)) = _
    rw [shift_ok (by omega)]
    rfl
  rw [word!, hlanes]
  rfl

/-- Every word that is cut off has an octet, and no more than the bus has lanes. -/
theorem length_mem_words {w : Nat} (hw : 0 < w) {bs word : Bytes} (h : word ∈ bs.words w) :
    0 < word.length ∧ word.length ≤ w := by
  obtain ⟨i, hi⟩ := List.getElem?_of_mem h
  rw [Bytes.getElem?_words hw] at hi
  split at hi
  · next hlt =>
    obtain rfl := Option.some.inj hi
    rw [List.length_take, List.length_drop]
    omega
  · exact absurd hi (by simp)

/-- On a supported width any octets are put on the bus. -/
theorem ofBytes!_eq {w : Nat} (hw : SupportedWidth w) (bs : Bytes) :
    ofBytes! w bs = .ok (ofBytes w bs) := by
  have h8 : w ≤ 8 := hw.le_eight
  have hbody : (bs.words w).dropLast.mapM inner! = .ok ((bs.words w).dropLast.map inner) := by
    refine mapM_ok fun word hword => ?_
    have hlen := length_mem_words hw.pos (List.dropLast_subset _ hword)
    rw [inner!, word!_eq (by omega)]
    rfl
  have hclose : (bs.words w).getLast?.toList.mapM closing! =
      .ok ((bs.words w).getLast?.toList.map closing) := by
    refine mapM_ok fun word hword => ?_
    have hlen := length_mem_words hw.pos
      (List.mem_of_getLast? (Option.mem_toList.1 hword))
    rw [closing!, word!_eq (by omega), ok_bind, sub_ok (by omega), ok_bind, shift_ok (by omega)]
    rfl
  rw [ofBytes!, require_ok (Nat.ne_of_gt hw.pos), ok_bind]
  dsimp only
  rw [hbody, ok_bind, hclose]
  rfl

end Beat

/-! ## §4. Change of width. -/

/-- Octets are taken off one bus and put on the other one, if the widths differ. -/
def Stride.convert! (s : Stride) (beats : List Beat) : Checked (List Beat) := do
  if s.source = s.target then return beats
  else Beat.ofBytes! s.target (← Beat.toBytes! s.source beats)

/-- Any words are converted between two supported widths. -/
theorem Stride.convert!_eq {s : Stride} (hsource : SupportedWidth s.source)
    (htarget : SupportedWidth s.target) (beats : List Beat) :
    s.convert! beats = .ok (s.convert beats) := by
  unfold convert! convert
  split
  · rfl
  · rw [Beat.toBytes!_eq hsource.le_eight, ok_bind, Beat.ofBytes!_eq htarget]

end NetBoard
