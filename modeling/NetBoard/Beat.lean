/-
  NetBoard.Beat
  ─────────────
  **BUS BEATS.**

  The framing primitives work on a bus of `w` octets a cycle.  A beat is one
  bus word: up to eight lanes, lane 0 holding the octet sent first, and on the
  last word of a packet a one-hot mark on its last valid lane.  This module
  converts octet strings to beats and back, and beats of one width to another.

  Main definitions:

      Beat.ofBytes w     — the words of a packet, the last one flagged
      Beat.toBytes w     — the octets of a packet, up to its last valid lane
      Stride.convert     — the beats of one width regrouped at another
-/
import NetBoard.Bytes
import NetBoard.Fault

namespace NetBoard

open scoped Power

/-! ## §1. Widths. -/

/-- The width itself, if the bus supports it. -/
def checkWidth (w : Nat) : Except Fault Nat :=
  if w = 1 ∨ w = 2 ∨ w = 4 ∨ w = 8 then .ok w else .error (.unsupportedWidth w)

/-- The bits of the lanes `0 … w-1`; eight lanes fill the word. -/
def lanesMask (w : Nat) : UInt64 := UInt64.ofNat (2 ^ (8 * min w 8) - 1)

/-- The lane flags `0 … w-1`; there are eight of them. -/
def laneFlags (w : Nat) : UInt8 := UInt8.ofNat (2 ^ min w 8 - 1)

/-- Rotate lane flags upward by `shift` lanes within a word of `w` lanes.  A
whole number of turns leaves them as they are, flags beyond the word included. -/
def rotateFlags (flags : UInt8) (shift w : Nat) : UInt8 :=
  let s := shift % w
  if s = 0 then flags
  else UInt8.ofNat (flags.toNat <<< s ||| flags.toNat >>> (w - s)) &&& laneFlags w

/-! ## §2. Beats. -/

/-- One bus word. -/
structure Beat where
  /-- The lanes, lane 0 in the low bits. -/
  data : UInt64
  /-- Does this word end the packet? -/
  last : Bool := false
  /-- On a last word, the flag of its last valid lane. -/
  lastBe : UInt8 := 0
  deriving Repr, DecidableEq, Inhabited

namespace Beat

/-- The octet in lane `i`. -/
def lane (b : Beat) (i : Nat) : UInt8 := UInt8.ofNat (b.data.toNat >>> (8 * i))

/-- How many lanes hold octets of the packet: on a flagged last word those up
to the highest flag, else the full width. -/
def validLanes (w : Nat) (b : Beat) : Nat :=
  if b.last && b.lastBe != 0 then b.lastBe.toNat.log2 + 1 else w

/-- The first `n` lanes. -/
def lanes (n : Nat) (b : Beat) : Bytes := (List.range n).map b.lane

/-- The octets of the packet that the beat carries. -/
def octets (w : Nat) (b : Beat) : Bytes := b.lanes (b.validLanes w)

/-- A word inside a packet. -/
def inner (word : Bytes) : Beat := { data := UInt64.ofNat word.toNatLE }

/-- The word that ends a packet, flagged on the lane of its final octet. -/
def closing (word : Bytes) : Beat :=
  { data := UInt64.ofNat word.toNatLE, last := true, lastBe := UInt8.ofNat (2 ^ (word.length - 1)) }

/-- The beats of a packet on a bus of `w` lanes.  An empty packet has none. -/
def ofBytes (w : Nat) (bs : Bytes) : List Beat :=
  let ws := bs.words w
  ws.dropLast.map inner ++ ws.getLast?.toList.map closing

/-- The beats of the first packet: those up to and with the first last one. -/
def packet (beats : List Beat) : List Beat :=
  let (body, rest) := beats.span (!·.last)
  body ++ rest.head?.toList

/-- The octets of the first packet in `beats`. -/
def toBytes (w : Nat) (beats : List Beat) : Bytes :=
  (packet beats).flatMap (octets w)

@[simp] theorem ofBytes_nil (w : Nat) : ofBytes w [] = [] := by
  simp [ofBytes]

@[simp] theorem length_lanes (n : Nat) (b : Beat) : (b.lanes n).length = n := by
  simp [lanes]

end Beat

/-! ## §3. Change of width. -/

/-- A converter between two bus widths, both supported. -/
structure Stride where
  source : Nat
  target : Nat
  deriving Repr, DecidableEq, Inhabited

namespace Stride

/-- A converter exists only between supported widths; the source is checked first. -/
def make? (source target : Nat) : Except Fault Stride := do
  return ⟨← checkWidth source, ← checkWidth target⟩

/-- Regroup beats.  Equal widths leave them as they are. -/
def convert (s : Stride) (beats : List Beat) : List Beat :=
  if s.source = s.target then beats
  else Beat.ofBytes s.target (Beat.toBytes s.source beats)

/-- The converter of the other direction. -/
def reverse (s : Stride) : Stride := ⟨s.target, s.source⟩

@[simp] theorem reverse_reverse (s : Stride) : s.reverse.reverse = s := rfl

end Stride
end NetBoard
