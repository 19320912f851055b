/-
  NetBoard.Crc32
  ──────────────
  **THE FRAME CHECK SEQUENCE.**

  The IEEE 802.3 CRC-32: octets enter least significant bit first, the
  register starts with ones and is complemented at the end, and the result is
  appended to the frame least significant octet first.

  Main definitions:

      Crc32.bit          — one bit through the register
      Crc32.octet        — one octet, bit by bit
      Crc32.table        — the octet steps of all 256 low register octets
      Crc32.update       — octets through the table
      Crc32.append / valid — a frame with its check sequence
-/
import NetBoard.Bytes

namespace NetBoard

/-- The register of a check sequence in progress, in reflected bit order. -/
structure Crc32 where
  register : UInt32 := 0xffffffff
  deriving Repr, DecidableEq, Inhabited

namespace Crc32

/-! ## §1. Bit by bit. -/

/-- The generator x³² + x²⁶ + … + 1 in reflected order. -/
def polynomial : UInt32 := 0xedb88320

/-- Shift the register by one bit, and divide if a one falls out. -/
def shift (r : UInt32) : UInt32 :=
  if r &&& 1 = 1 then (r >>> 1) ^^^ polynomial else r >>> 1

/-- Feed one bit. -/
def bit (r : UInt32) (b : Bool) : UInt32 := shift (r ^^^ (if b then 1 else 0))

/-- Feed one octet, least significant bit first. -/
def octet (r : UInt32) (o : UInt8) : UInt32 :=
  (List.range 8).foldl (fun r i => bit r (o.toNat.testBit i)) r

/-! ## §2. By table. -/

/-- What eight shifts make of a register that holds one octet. -/
def tableEntry (i : Nat) : UInt32 :=
  (List.range 8).foldl (fun r _ => shift r) (UInt32.ofNat i)

/-- The entries of all octets. -/
def table : Vector UInt32 256 := Vector.ofFn fun i => tableEntry i.val

/-- Feed one octet through the table. -/
def tableStep (r : UInt32) (o : UInt8) : UInt32 :=
  -- eight shifts act on the low octet through the table and move the others down
  table.get (r.toUInt8 ^^^ o).toFin ^^^ (r >>> 8)

/-- Feed octets. -/
def update (c : Crc32) (bs : Bytes) : Crc32 := ⟨bs.foldl tableStep c.register⟩

/-- The check sequence of the octets fed so far. -/
def value (c : Crc32) : UInt32 := ~~~c.register

/-- The register that is left after any frame followed by its check sequence. -/
def residue : UInt32 := 0xdebb20e3

/-- Do the octets fed so far end with their check sequence? -/
def check (c : Crc32) : Bool := c.register == residue

@[simp] theorem update_append (c : Crc32) (xs ys : Bytes) :
    c.update (xs ++ ys) = (c.update xs).update ys := by
  simp [update]

/-! ## §3. Frames. -/

/-- The length of a check sequence. -/
def length : Nat := 4

/-- The check sequence of a frame, in the order it is sent. -/
def sequence (frame : Bytes) : Bytes :=
  Bytes.ofNatLE length (({} : Crc32).update frame).value.toNat

/-- The frame followed by its check sequence. -/
def append (frame : Bytes) : Bytes := frame ++ sequence frame

/-- Does the frame end with its check sequence? -/
def valid (frame : Bytes) : Bool :=
  decide (length ≤ frame.length) && (({} : Crc32).update frame).check

end Crc32
end NetBoard
