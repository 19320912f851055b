/-
  NetBoard.Ethernet.Framing
  ─────────────────────────
  **PADDING, PREAMBLE AND INTERPACKET GAP.**

  What stands around a frame on the wire: zeros that bring it to the minimum
  length, the eight octets that announce it, and the silence after it.
-/
import NetBoard.Header.Depacketizer

namespace NetBoard.Ethernet

/-! ## §1. Padding. -/

/-- Bring a frame to the minimum length with zeros. -/
def pad (minLength : Nat) (frame : Bytes) : Bytes :=
  frame ++ List.replicate (minLength - frame.length) 0

/-- Is a received frame below the minimum length? -/
def isRunt (minLength : Nat) (frame : Bytes) : Bool := frame.length < minLength

theorem length_pad (minLength : Nat) (frame : Bytes) :
    (pad minLength frame).length = max frame.length minLength := by
  simp [pad]; omega

/-! ## §2. Preamble. -/

namespace Preamble

/-- The preamble as a header of one field. -/
def header : Header where
  fields := [⟨"preamble", 0, 0, 64⟩]
  length := 8

/-- Seven octets 0x55 and the start of frame delimiter 0xd5. -/
def value : Nat := 0x55555555555555d5

/-- Announce a frame. -/
def insert (p : Packetizer) (frame : Bytes) : Packetizer × Bytes :=
  p.packetize (({} : Fields).set "preamble" value) frame

/-- Take the preamble off; none if it is short or not as it should be. -/
def strip (d : Depacketizer) (bs : Bytes) : Depacketizer × Option Bytes :=
  let (d, packet) := d.depacketize bs
  (d, packet.bind fun (values, frame) =>
    if values.get "preamble" = value then some frame else none)

end Preamble

/-! ## §3. Gap. -/

/-- The silence after a frame, counted in bus cycles. -/
structure Gap where
  /-- The cycles of a whole gap. -/
  cycles : Nat
  /-- The cycles still to wait. -/
  left : Nat := 0
  deriving Repr, DecidableEq, Inhabited

namespace Gap

/-- A gap of at least `octets` octet times on a bus of `width` octets a cycle. -/
def make (octets width : Nat) : Gap := { cycles := (octets + width - 1) / width }

/-- A frame has been sent: start to wait. -/
def start (g : Gap) : Gap := { g with left := g.cycles }

/-- Let one cycle pass. -/
def tick (g : Gap) : Gap := { g with left := g.left - 1 }

/-- May the next frame be sent? -/
def isIdle (g : Gap) : Bool := g.left == 0

end Gap
end NetBoard.Ethernet
