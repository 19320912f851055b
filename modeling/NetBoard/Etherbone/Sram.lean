/-
  NetBoard.Etherbone.Sram
  ───────────────────────
  **THE MEMORY ON THE BUS.**

  A bus of 32-bit words.  An access names a word by its number and the octet
  lanes that take part; the memory answers for a range of words, and all
  other words read as zero and ignore what is written.
-/

namespace NetBoard.Etherbone

/-- A memory on the bus. -/
structure Sram where
  /-- The octet address of its first word. -/
  base : UInt32
  words : Array UInt32
  deriving Repr, DecidableEq, Inhabited

namespace Sram

/-- A zeroed memory of at least `size` octets. -/
def make (base : UInt32) (size : Nat) : Sram := ⟨base, Array.replicate ((size + 3) / 4) 0⟩

/-- The octets of the memory. -/
def size (m : Sram) : Nat := m.words.size * 4

/-- The bits of the lanes that take part; lane `i` holds bits `8 i` to `8 i + 7`. -/
def laneMask (sel : UInt8) : UInt32 :=
  (List.range 4).foldl (fun mask i =>
    if sel.toNat.testBit i then mask ||| UInt32.ofNat (0xff <<< (8 * i)) else mask) 0

/-- The place of a word in the memory. -/
def index? (m : Sram) (word : UInt32) : Option Nat :=
  let first := m.base >>> 2
  if first ≤ word ∧ (word - first).toNat < m.words.size then some (word - first).toNat else none

/-- Read a word; lanes that take no part read as zero. -/
def read (m : Sram) (word : UInt32) (sel : UInt8) : UInt32 :=
  match m.index? word with
  | none => 0
  | some i => m.words.getD i 0 &&& laneMask sel

/-- Write a word; lanes that take no part keep their value. -/
def write (m : Sram) (word data : UInt32) (sel : UInt8) : Sram :=
  match m.index? word with
  | none => m
  | some i =>
    let mask := laneMask sel
    { m with words := m.words.setIfInBounds i ((m.words.getD i 0 &&& ~~~mask) ||| (data &&& mask)) }

@[simp] theorem size_write (m : Sram) (word data : UInt32) (sel : UInt8) :
    (m.write word data sel).size = m.size := by
  unfold write size
  split <;> simp

end Sram
end NetBoard.Etherbone
