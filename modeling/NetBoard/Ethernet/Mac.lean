/-
  NetBoard.Ethernet.Mac
  ─────────────────────
  **MEDIA ACCESS.**

  The layer between the wire and the Ethernet types.  Frames to be sent get
  their header and padding, and on a bare wire also check sequence, preamble
  and gap; received ones are checked, stripped and handed to the crossbar.

  Main definitions:

      Mac.transmit  — one frame from the crossbar to the wire
      Mac.accept    — the frame in a received octet string, if it is sound
      Mac.step      — crossbar, transmission and reception
-/
import NetBoard.Crc32
import NetBoard.Ethernet.Frame
import NetBoard.Ethernet.Framing

namespace NetBoard.Ethernet

/-- The frames a MAC has handled. -/
structure Mac.Stats where
  rxFrames : Nat := 0
  txFrames : Nat := 0
  preambleErrors : Nat := 0
  crcErrors : Nat := 0
  runts : Nat := 0
  truncated : Nat := 0
  deriving Repr, DecidableEq, Inhabited

/-- The media access layer. -/
structure Mac where
  address : MacAddress
  /-- Does the wire carry preamble and check sequence? -/
  bareWire : Bool
  crossbar : Crossbar Frame
  /-- Received octet strings: the wire's side is the sender. -/
  wireIn : Pipe Bytes
  /-- Octet strings to be sent: the wire's side is the receiver. -/
  wireOut : Pipe Bytes
  packetizer : Packetizer
  depacketizer : Depacketizer
  preambler : Packetizer
  deambler : Depacketizer
  gap : Gap
  /-- A sent frame for which the wire had no room. -/
  heldOut : Option Bytes := none
  /-- A received frame for which the crossbar had no room. -/
  heldIn : Option Frame := none
  stats : Mac.Stats := {}
  deriving Repr, DecidableEq, Inhabited

namespace Mac

/-- The name under which the layer logs. -/
def source : String := "mac"

/-- A MAC on a bus of `width` octets.  Without preamble and check sequence the
wire needs no gap. -/
def make? (address : MacAddress) (width : Nat) (bareWire : Bool) (gapOctets depth : Nat) :
    Except Fault Mac := do
  let width ← checkWidth width
  return {
    address, bareWire
    crossbar := .make .etherType depth
    wireIn := .make depth
    wireOut := .make depth
    packetizer := { header, width }
    depacketizer := { format := header, width }
    preambler := { header := Preamble.header, width }
    deambler := { format := Preamble.header, width }
    gap := .make (if bareWire then gapOctets else 0) width }

/-! ## §1. Transmission. -/

/-- The octets of a frame on the wire. -/
def wireImage (mac : Mac) (frame : Frame) : Mac × Bytes :=
  let (packetizer, bs) := mac.packetizer.packetize frame.fields frame.payload
  let bs := pad minFrameLength bs
  if mac.bareWire then
    let (preambler, bs) := Preamble.insert mac.preambler (Crc32.append bs)
    -- the gap runs from here, whether the wire has room or not
    ({ mac with packetizer, preambler, gap := mac.gap.start }, bs)
  else ({ mac with packetizer }, bs)

/-- Send the next frame of the crossbar, once the gap is over. -/
def transmitNext (mac : Mac) : Outcome Mac :=
  -- a cycle of the gap is progress: waiting for its end is not rest
  if !mac.gap.isIdle then .moved { mac with gap := mac.gap.tick }
  else
    match mac.crossbar.outbox.take with
    | none => .idle mac
    | some (frame, outbox) =>
      let (mac, bs) := { mac with crossbar := { mac.crossbar with outbox } }.wireImage frame
      let (heldOut, wireOut) := sendOrHold bs mac.wireOut
      let stats := { mac.stats with txFrames := mac.stats.txFrames + 1 }
      let type := Text.hexTagged 4 frame.type.toNat
      .moved { mac with heldOut, wireOut, stats }
        [⟨Log.extensive, source,
          s!"tx frame to {frame.target.text}, type {type}, {bs.length} bytes"⟩]

/-- Send a held frame first; while the wire has no room nothing else happens. -/
def transmit (mac : Mac) : Outcome Mac :=
  match mac.heldOut with
  | none => mac.transmitNext
  | some bs =>
    match flush (some bs) mac.wireOut with
    | (false, _, _) => .idle mac
    | (true, heldOut, wireOut) => (Outcome.moved { mac with heldOut, wireOut }).andThen transmitNext

/-! ## §2. Reception. -/

/-- Why a received octet string is not a sound frame. -/
inductive Defect where
  | preamble
  | crc
  | truncated
  deriving Repr, DecidableEq, Inhabited

/-- The reason as logged. -/
def Defect.reason : Defect → String
  | preamble => "preamble mismatch"
  | crc => "crc error"
  | truncated => "truncated header"

/-- Count a defect. -/
def Defect.count (d : Defect) (s : Stats) : Stats :=
  match d with
  | preamble => { s with preambleErrors := s.preambleErrors + 1 }
  | crc => { s with crcErrors := s.crcErrors + 1 }
  | truncated => { s with truncated := s.truncated + 1 }

/-- Check and take off what surrounds a frame on a bare wire. -/
def unwrap (mac : Mac) (bs : Bytes) : Mac × Except Defect Bytes :=
  if mac.bareWire then
    let (deambler, stripped) := Preamble.strip mac.deambler bs
    ({ mac with deambler },
      match stripped with
      | none => .error .preamble
      | some frame =>
        -- the check sequence covers the frame, not its preamble
        if Crc32.valid frame then .ok (frame.take (frame.length - Crc32.length)) else .error .crc)
  else (mac, .ok bs)

/-- Read a frame without its surroundings; a short one is counted and passed on. -/
def parse (mac : Mac) (bs : Bytes) : Mac × Except Defect Frame :=
  let runts := mac.stats.runts + if isRunt minFrameLength bs then 1 else 0
  let (depacketizer, packet) := mac.depacketizer.depacketize bs
  ({ mac with depacketizer, stats := { mac.stats with runts } },
    match packet with
    | none => .error .truncated
    | some (values, payload) => .ok (Frame.ofFields values payload))

/-- The frame in a received octet string; a defect is counted and logged. -/
def accept (mac : Mac) (bs : Bytes) : Mac × Option Frame × List Log.Line :=
  let (mac, frame) :=
    match mac.unwrap bs with
    | (mac, .ok bs) => mac.parse bs
    | (mac, .error d) => (mac, .error d)
  match frame with
  | .ok frame => (mac, some frame, [])
  | .error d =>
    ({ mac with stats := d.count mac.stats }, none,
      [⟨Log.medium, source, s!"rx frame dropped, {d.reason}"⟩])

/-- Take the next octet string from the wire. -/
def receiveNext (mac : Mac) : Outcome Mac :=
  match mac.wireIn.take with
  | none => .idle mac
  | some (bs, wireIn) =>
    match { mac with wireIn }.accept bs with
    | (mac, none, log) => .moved mac log
    | (mac, some frame, log) =>
      let (heldIn, inbox) := sendOrHold frame mac.crossbar.inbox
      let stats := { mac.stats with rxFrames := mac.stats.rxFrames + 1 }
      .moved { mac with heldIn, stats, crossbar := { mac.crossbar with inbox } } log

/-- Pass on a held frame first; while the crossbar has no room nothing else is taken. -/
def receive (mac : Mac) : Outcome Mac :=
  match mac.heldIn with
  | none => mac.receiveNext
  | some frame =>
    match flush (some frame) mac.crossbar.inbox with
    | (false, _, _) => .idle mac
    | (true, heldIn, inbox) =>
      (Outcome.moved { mac with heldIn, crossbar := { mac.crossbar with inbox } }).andThen
        receiveNext

/-! ## §3. Steps. -/

/-- One step of the crossbar, of transmission and of reception. -/
def step (mac : Mac) : Outcome Mac :=
  ((mac.crossbar.step.map fun crossbar => { mac with crossbar }).andThen transmit).andThen receive

/-- Subscribe to an Ethernet type. -/
def register (mac : Mac) (type : UInt16) : Except Fault (Mac × List Log.Line) := do
  let (crossbar, log) ← mac.crossbar.register type
  return ({ mac with crossbar }, log)

end Mac
end NetBoard.Ethernet
