/-
  NetBoard.Proofs.Etherbone.Walk
  ──────────────────────────────
  **THE RECEIVER WALKS THROUGH A RECORD.**

  A record has up to two halves, and each half has an address in front.  The
  receiver knows no positions, only a state and a counter of eight bits.  While
  it is fed the words of a record its state is still a function of the position,
  `Receiver.stateAt`, whichever of the halves are there; so it comes back to
  rest with the last word, and not before.

  Main definitions:

      Shape.write, Shape.read   — the accesses of a record, by number
      Shape.access?             — the access that the word at a position completes
      Receiver.stateAt          — the state at a position
      Receiver.fed!             — words fed to a receiver at rest, with checks

  Main statements:

      next_stateAt    — one word moves the receiver to the next position
      fed_take        — so do the first words of a record
      map_access?     — what its words complete, half by half
      record_walked   — the whole of a record
-/
import NetBoard.Proofs.Checked.Endpoint

namespace NetBoard.Etherbone

open Checked

/-! ## §1. What a record says. -/

theorem ne_zero_of_lt {count : UInt8} {i : Nat} (h : i < count.toNat) : count ≠ 0 := by
  rintro rfl
  exact absurd h (Nat.not_lt_zero i)

/-- A half with an access has an address in front. -/
theorem half_of_lt {count : UInt8} {i : Nat} (h : i < count.toNat) :
    half count = 1 + count.toNat := by
  obtain ⟨hhalf, -⟩ := half_pos (ne_zero_of_lt h)
  exact hhalf

namespace Shape

/-- **The write number `i`**: the words are written one after the other, from the address
in front of them on. -/
def write (shape : Shape) (words : List UInt32) (i : Nat) : Access where
  isWrite := true
  word := (words.getD 0 0 >>> 2) + UInt32.ofNat i
  data := words.getD (i + 1) 0
  returnTo := words.getD 0 0
  byteEnable := shape.byteEnable
  count := shape.writes
  last := i + 1 == shape.writes.toNat

/-- **The read number `i`**: the addresses stand behind the one to which the results go. -/
def read (shape : Shape) (words : List UInt32) (i : Nat) : Access where
  isWrite := false
  word := words.getD (half shape.writes + (i + 1)) 0 >>> 2
  data := 0
  returnTo := words.getD (half shape.writes) 0
  byteEnable := shape.byteEnable
  count := shape.reads
  last := i + 1 == shape.reads.toNat

/-- All writes of a record. -/
def allWrites (shape : Shape) (words : List UInt32) : List Access :=
  (List.range shape.writes.toNat).map (shape.write words)

/-- All reads of a record. -/
def allReads (shape : Shape) (words : List UInt32) : List Access :=
  (List.range shape.reads.toNat).map (shape.read words)

/-- What the words of one half complete: nothing the address in front, an access each of
the others. -/
def completed : List Access → List (Option Access)
  | [] => []
  | accesses => none :: accesses.map some

/-- The access that the word at a position completes. -/
def access? (shape : Shape) (words : List UInt32) (n : Nat) : Option Access :=
  let second := half shape.writes
  if n < second then if n = 0 then none else some (shape.write words (n - 1))
  else if n = second then none
  else some (shape.read words (n - second - 1))

theorem access?_of_lt {shape : Shape} {words : List UInt32} {i : Nat}
    (h : i < shape.writes.toNat) : shape.access? words (i + 1) = some (shape.write words i) := by
  have hhalf := half_of_lt h
  unfold access?
  dsimp only
  rw [if_pos (by omega), if_neg (Nat.succ_ne_zero i), Nat.add_sub_cancel]

theorem access?_zero (shape : Shape) (words : List UInt32) : shape.access? words 0 = none := by
  unfold access?
  dsimp only
  split
  · rfl
  · rw [if_pos (by omega)]

theorem access?_second (shape : Shape) (words : List UInt32) :
    shape.access? words (half shape.writes) = none := by
  unfold access?
  dsimp only
  rw [if_neg (Nat.lt_irrefl _), if_pos rfl]

theorem access?_behind (shape : Shape) (words : List UInt32) (i : Nat) :
    shape.access? words (half shape.writes + (i + 1)) = some (shape.read words i) := by
  unfold access?
  dsimp only
  rw [if_neg (by omega), if_neg (by omega), Nat.add_sub_cancel_left, Nat.add_sub_cancel]

/-- One half: its first word completes nothing, the others do as `f` says. -/
theorem map_half {count : UInt8} {f : Nat → Access} {g : Nat → Option Access} (hfirst : g 0 = none)
    (hothers : ∀ i < count.toNat, g (i + 1) = some (f i)) :
    (List.range (half count)).map g = completed ((List.range count.toNat).map f) := by
  by_cases hcount : count = 0
  · subst hcount
    rfl
  · obtain ⟨hhalf, hpos⟩ := half_pos hcount
    have hcompleted : completed ((List.range count.toNat).map f) =
        none :: ((List.range count.toNat).map f).map some := by
      obtain ⟨k, hk⟩ : ∃ k, count.toNat = k + 1 := ⟨count.toNat - 1, by omega⟩
      rw [hk, List.range_succ_eq_map]
      rfl
    rw [hcompleted, hhalf, Nat.add_comm, List.range_succ_eq_map, List.map_cons, hfirst,
      List.map_map, List.map_map]
    congr 1
    apply List.map_congr_left
    intro i hi
    exact hothers i (List.mem_range.1 hi)

/-- **What the words of a record complete**: the writes, then the reads, and nothing by the
addresses in front of them. -/
theorem map_access? (shape : Shape) (words : List UInt32) :
    (List.range shape.words).map (shape.access? words) =
      completed (shape.allWrites words) ++ completed (shape.allReads words) := by
  rw [words_eq_half, List.range_add, List.map_append, List.map_map,
    map_half (f := shape.write words) (shape.access?_zero words) fun i hi => access?_of_lt hi,
    map_half (f := shape.read words) (shape.access?_second words)
      fun i _ => shape.access?_behind words i]
  rfl

end Shape

/-! ## §2. Positions. -/

namespace Receiver

/-- **The state when the words in front of a position have been fed.** -/
def stateAt (shape : Shape) (words : List UInt32) (n : Nat) : Receiver :=
  let second := half shape.writes
  if n = 0 ∨ n = shape.words then idle
  else if n < second then writes (words.getD 0 0) (n - 1)
  else if n = second then returnAddress
  else reads (words.getD second 0) (n - second - 1)

variable {shape : Shape} {words : List UInt32} {n : Nat}

/-- At rest only in front of the record and behind it. -/
theorem stateAt_eq_idle_iff :
    stateAt shape words n = idle ↔ n = 0 ∨ n = shape.words := by
  unfold stateAt
  dsimp only
  split
  · next hrest => exact iff_of_true rfl hrest
  · next hrest =>
    refine iff_of_false ?_ hrest
    split
    · exact Receiver.noConfusion
    · split
      · exact Receiver.noConfusion
      · exact Receiver.noConfusion

theorem stateAt_write {i : Nat} (h : i < shape.writes.toNat) :
    stateAt shape words (i + 1) = writes (words.getD 0 0) i := by
  have hhalves := words_eq_half shape
  have hhalf := half_of_lt h
  unfold stateAt
  dsimp only
  rw [if_neg (by omega), if_pos (by omega), Nat.add_sub_cancel]

theorem stateAt_second (hwrites : shape.writes ≠ 0) (hreads : shape.reads ≠ 0) :
    stateAt shape words (half shape.writes) = returnAddress := by
  have hhalves := words_eq_half shape
  obtain ⟨hfirst, -⟩ := half_pos hwrites
  obtain ⟨hsecond, -⟩ := half_pos hreads
  unfold stateAt
  dsimp only
  rw [if_neg (by omega), if_neg (Nat.lt_irrefl _), if_pos rfl]

theorem stateAt_read {i : Nat} (h : i < shape.reads.toNat) :
    stateAt shape words (half shape.writes + (i + 1)) =
      reads (words.getD (half shape.writes) 0) i := by
  have hhalves := words_eq_half shape
  have hhalf := half_of_lt h
  unfold stateAt
  dsimp only
  rw [if_neg (by omega), if_neg (by omega), if_neg (by omega), Nat.add_sub_cancel_left,
    Nat.add_sub_cancel]

/-- **The positions of a record**: its beginning, the words to be written, the return address
behind them, the addresses to be read. -/
theorem position_cases (hn : n < shape.words) :
    n = 0 ∨ (∃ i < shape.writes.toNat, n = i + 1) ∨
      (n = half shape.writes ∧ shape.writes ≠ 0 ∧ shape.reads ≠ 0) ∨
      ∃ i < shape.reads.toNat, n = half shape.writes + (i + 1) := by
  have hhalves := words_eq_half shape
  by_cases hfirst : n = 0
  · exact .inl hfirst
  · by_cases hbefore : n < half shape.writes
    · have hwrites : shape.writes ≠ 0 := mt half_eq_zero_iff.2 (by omega)
      obtain ⟨hhalf, -⟩ := half_pos hwrites
      exact .inr (.inl ⟨n - 1, by omega, by omega⟩)
    · have hreads : shape.reads ≠ 0 := mt half_eq_zero_iff.2 (by omega)
      obtain ⟨hhalf, -⟩ := half_pos hreads
      by_cases hreturn : n = half shape.writes
      · have hwrites : shape.writes ≠ 0 := mt half_eq_zero_iff.2 (by omega)
        exact .inr (.inr (.inl ⟨hreturn, hwrites, hreads⟩))
      · exact .inr (.inr (.inr ⟨n - half shape.writes - 1, by omega, by omega⟩))

/-- The first word is the address of the half that comes first. -/
theorem next_stateAt_first (words : List UInt32) (hn : 0 < shape.words) :
    (stateAt shape words 0).next shape (words.getD 0 0) = (stateAt shape words 1, none) := by
  rw [stateAt_eq_idle_iff.2 (.inl rfl)]
  unfold next
  dsimp only
  by_cases hwrites : shape.writes = 0
  · have hfirst : half shape.writes = 0 := half_eq_zero_iff.2 hwrites
    have hreads : shape.reads ≠ 0 := by
      refine mt half_eq_zero_iff.2 ?_
      rw [words_eq_half] at hn
      omega
    obtain ⟨-, hpos⟩ := half_pos hreads
    have hstate : stateAt shape words 1 = reads (words.getD 0 0) 0 := by
      simpa only [hfirst, Nat.zero_add] using stateAt_read hpos
    rw [if_neg (not_not_intro hwrites), if_pos hreads, hstate]
  · obtain ⟨-, hpos⟩ := half_pos hwrites
    rw [if_pos hwrites, stateAt_write hpos]

/-- Behind the last word to be written the second half begins, if there is one. -/
theorem stateAt_after_write {i : Nat} (hi : i < shape.writes.toNat) :
    stateAt shape words (i + 1 + 1) =
      if !(i + 1 == shape.writes.toNat) then writes (words.getD 0 0) (i + 1)
      else if shape.reads ≠ 0 then returnAddress else idle := by
  have hhalf := half_of_lt hi
  by_cases hlast : i + 1 = shape.writes.toNat
  · rw [if_neg (by simp [hlast]), show i + 1 + 1 = half shape.writes by omega]
    by_cases hreads : shape.reads = 0
    · have hend : half shape.writes = shape.words := by
        rw [words_eq_half, half_eq_zero_iff.2 hreads, Nat.add_zero]
      rw [if_neg (not_not_intro hreads), stateAt_eq_idle_iff.2 (.inr hend)]
    · rw [if_pos hreads, stateAt_second (ne_zero_of_lt hi) hreads]
  · rw [if_pos (by simp [hlast]), stateAt_write (by omega)]

/-- Behind the last address to be read the record ends. -/
theorem stateAt_after_read {i : Nat} (hi : i < shape.reads.toNat) :
    stateAt shape words (half shape.writes + (i + 1) + 1) =
      if i + 1 == shape.reads.toNat then idle
      else reads (words.getD (half shape.writes) 0) (i + 1) := by
  have hhalves := words_eq_half shape
  have hhalf := half_of_lt hi
  by_cases hlast : i + 1 = shape.reads.toNat
  · rw [if_pos (by simp [hlast]), stateAt_eq_idle_iff.2 (.inr (by omega))]
  · rw [if_neg (by simp [hlast]), Nat.add_assoc, stateAt_read (by omega)]

/-- **One word moves the receiver to the next position.** -/
theorem next_stateAt (words : List UInt32) (hn : n < shape.words) :
    (stateAt shape words n).next shape (words.getD n 0) =
      (stateAt shape words (n + 1), shape.access? words n) := by
  rcases position_cases hn with rfl | ⟨i, hi, rfl⟩ | ⟨rfl, hwrites, hreads⟩ | ⟨i, hi, rfl⟩
  · rw [next_stateAt_first words hn, Shape.access?_zero]
  · rw [stateAt_write hi, Shape.access?_of_lt hi, stateAt_after_write hi]
    rfl
  · obtain ⟨-, hpos⟩ := half_pos hreads
    rw [stateAt_second hwrites hreads, stateAt_read hpos, Shape.access?_second]
    rfl
  · rw [stateAt_read hi, Shape.access?_behind, stateAt_after_read hi]
    rfl

/-! ## §3. Runs. -/

/-- One word fed, with what all words so far have completed. -/
def feed (shape : Shape) (s : Receiver × List (Option Access)) (word : UInt32) :
    Receiver × List (Option Access) :=
  let (state, access) := s.1.next shape word
  (state, s.2 ++ [access])

/-- The same with checked operations. -/
def feed! (shape : Shape) (s : Receiver × List (Option Access)) (word : UInt32) :
    Checked (Receiver × List (Option Access)) := do
  let (state, access) ← s.1.next! shape word
  return (state, s.2 ++ [access])

/-- **Words fed to a receiver at rest**: where they leave it, and what they complete. -/
def fed (shape : Shape) (words : List UInt32) : Receiver × List (Option Access) :=
  words.foldl (feed shape) (idle, [])

/-- The same with checked operations. -/
def fed! (shape : Shape) (words : List UInt32) : Checked (Receiver × List (Option Access)) :=
  words.foldlM (feed! shape) (idle, [])

/-- No check fails, whatever the words are. -/
theorem fed!_eq (shape : Shape) (words : List UInt32) : fed! shape words = .ok (fed shape words) := by
  have hfeed : ∀ word ∈ words, ∀ s : Receiver × List (Option Access), s.1.Fits shape →
      feed! shape s word = .ok (feed shape s word) ∧ (feed shape s word).1.Fits shape := by
    intro word _ s hs
    obtain ⟨hnext, hfits⟩ := hs.next! word
    refine ⟨?_, hfits⟩
    rw [feed!, hnext]
    rfl
  exact (foldlM_ok (P := fun s => s.1.Fits shape) hfeed trivial).1

/-- **The first words of a record** leave the receiver at their position. -/
theorem fed_take {words : List UInt32} (hlen : words.length = shape.words) (hn : n ≤ words.length) :
    fed shape (words.take n) =
      (stateAt shape words n, (List.range n).map (shape.access? words)) := by
  induction n with
  | zero => rfl
  | succ n ih =>
    have hlt : n < words.length := hn
    have htake : words.take (n + 1) = words.take n ++ [words.getD n 0] := by
      rw [List.take_add_one, List.getD_eq_getElem?_getD, List.getElem?_eq_getElem hlt]
      rfl
    have hnext := next_stateAt words (hlen ▸ hlt)
    have hfed := ih (Nat.le_of_lt hlt)
    unfold fed at hfed ⊢
    rw [htake, List.foldl_append, hfed, List.range_succ, List.map_append]
    show feed shape _ _ = _
    rw [feed, hnext]
    rfl

/-- The words to be written follow each other: their numbers do not wrap. -/
theorem toNat_word_write {words : List UInt32} {i : Nat} (h : i < shape.writes.toNat) :
    (shape.write words i).word.toNat = (words.getD 0 0).toNat / 4 + i := by
  have hcount := shape.writes.toNat_lt
  have hbase := (words.getD 0 0).toNat_lt
  have hshift : (words.getD 0 0 >>> 2).toNat = (words.getD 0 0).toNat / 4 := by
    rw [UInt32.toNat_shiftRight, Nat.shiftRight_eq_div_pow]
    rfl
  show ((words.getD 0 0 >>> 2) + UInt32.ofNat i).toNat = _
  rw [UInt32.toNat_add, hshift, UInt32.toNat_ofNat']
  omega

/-- **A record is walked through**, whatever its header says and whatever its words are.

No check fails on the way.  The words complete the writes, then the reads, and nothing is
completed by the addresses in front of them.  The receiver is at rest again behind the last
word, and behind no word before it. -/
theorem record_walked (shape : Shape) (words : List UInt32) (hlen : words.length = shape.words) :
    let completes := Shape.completed (shape.allWrites words) ++ Shape.completed (shape.allReads words)
    fed! shape words = .ok (idle, completes) ∧
    (∀ n, 0 < n → n < words.length →
      ∃ state, fed! shape (words.take n) = .ok (state, completes.take n) ∧ state ≠ idle) ∧
    ∀ i < shape.writes.toNat, (shape.write words i).word.toNat = (words.getD 0 0).toNat / 4 + i := by
  intro completes
  have hcompletes : (List.range words.length).map (shape.access? words) = completes := by
    rw [hlen]
    exact shape.map_access? words
  refine ⟨?_, fun n hpos hn => ?_, fun i hi => toNat_word_write hi⟩
  · have hall := fed_take hlen (Nat.le_refl words.length)
    rw [List.take_length, hcompletes, stateAt_eq_idle_iff.2 (.inr hlen)] at hall
    rw [fed!_eq, hall]
  · have hfirst := fed_take hlen (Nat.le_of_lt hn)
    refine ⟨stateAt shape words n, ?_, ?_⟩
    · rw [fed!_eq, hfirst, ← hcompletes, ← List.map_take, List.take_range, Nat.min_eq_left hn.le]
    · rw [Ne, stateAt_eq_idle_iff]
      omega

/-- Two writes and a read, word by word. -/
theorem record_walked_both :
    let shape : Shape := ⟨0x0f, 2, 1⟩
    let words : List UInt32 := [0x1004, 7, 8, 0x8000, 0x1008]
    words.length = shape.words ∧
    fed! shape words = .ok (idle,
      [none, some ⟨true, 0x401, 7, 0x1004, 0x0f, 2, false⟩,
        some ⟨true, 0x402, 8, 0x1004, 0x0f, 2, true⟩,
        none, some ⟨false, 0x402, 0, 0x8000, 0x0f, 1, true⟩]) := by
  intro shape words
  obtain ⟨hfed, -⟩ := record_walked shape words (by decide)
  exact ⟨by decide, hfed.trans (by decide)⟩

end Receiver
end NetBoard.Etherbone
