/-
  NetBoard.Header.Depacketizer
  ────────────────────────────
  **TAKING A HEADER OFF A PACKET.**

  The depacketizer collects the first octets of a packet, decodes them as a
  header, and passes on the rest as payload beats that start at lane 0.  A
  packet that ends inside its header is marked as truncated.

  Main definitions:

      Depacketizer.push         — one beat in, the payload beats it completes
      Depacketizer.depacketize  — header values and payload of a whole packet
-/
import NetBoard.Header.Packetizer

namespace NetBoard

/-- Where a depacketizer stands in its packet. -/
inductive Depacketizer.Phase where
  /-- Inside the header, with the octets seen so far. -/
  | header (seen : Bytes)
  /-- In a payload that starts at lane 0. -/
  | aligned
  /-- In a payload that starts above lane 0, with the word before. -/
  | shifted (previous : UInt64)
  deriving Repr, DecidableEq, Inhabited

/-- A bus stage that takes a header off a packet. -/
structure Depacketizer where
  format : Header
  /-- The lanes of the bus. -/
  width : Nat
  phase : Depacketizer.Phase := .header []
  /-- The header of the current packet, once it is complete. -/
  fields : Option Fields := none
  /-- Did the latest packet end inside its header? -/
  truncated : Bool := false
  deriving Repr, DecidableEq, Inhabited

namespace Depacketizer

/-- The header octets that share a word with payload. -/
def leftover (d : Depacketizer) : Nat := d.format.length % d.width

/-- The header octets that fill whole words. -/
def full (d : Depacketizer) : Nat := d.format.length / d.width * d.width

/-- Forget everything about earlier packets. -/
def reset (d : Depacketizer) : Depacketizer :=
  { d with phase := .header [], fields := none, truncated := false }

/-- Wait for the next packet, keeping what is known of this one. -/
def restart (d : Depacketizer) : Depacketizer := { d with phase := .header [] }

/-- Feed a beat that lies within the header as a whole. -/
def pushHeader (d : Depacketizer) (seen : Bytes) (beat : Beat) : Depacketizer :=
  let seen := seen ++ beat.lanes d.width
  -- the header ends with this word
  if seen.length = d.full && d.leftover = 0
      && (!beat.last || beat.validLanes d.width = d.width) then
    { d with fields := some (d.format.decode seen)
             phase := if beat.last then .header [] else .aligned }
  -- the packet ends first
  else if beat.last then { d with truncated := true, phase := .header [] }
  else { d with phase := .header seen }

/-- Feed the beat that the last header octets share with the head of the payload. -/
def pushBoundary (d : Depacketizer) (seen : Bytes) (beat : Beat) : Depacketizer × List Beat :=
  let l := d.leftover
  let d := { d with fields := some (d.format.decode (seen ++ beat.lanes l)) }
  if !beat.last then ({ d with phase := .shifted beat.data }, [])
  else
    let valid := beat.validLanes d.width
    -- the packet ends in this word: the lanes above the header are its payload
    if l < valid then
      (d.restart, [{ data := Packetizer.down beat.data l &&& lanesMask d.width, last := true
                     lastBe := rotateFlags beat.lastBe (d.width - l) d.width }])
    else ({ d.restart with truncated := d.truncated || decide (valid < l) }, [])

/-- Feed a payload beat behind a header that ended inside a word. -/
def pushShifted (d : Depacketizer) (previous : UInt64) (beat : Beat) :
    Depacketizer × List Beat :=
  let l := d.leftover
  let mask := lanesMask d.width
  let data := (Packetizer.down previous l ||| Packetizer.up beat.data (d.width - l)) &&& mask
  if !beat.last then ({ d with phase := .shifted beat.data }, [{ data }])
  else
    let lastBe := rotateFlags beat.lastBe (d.width - l) d.width
    let beats :=
      -- the flag moved down: lanes from `l` on need a word of their own
      if beat.lastBe > lastBe then
        [{ data }, { data := Packetizer.down beat.data l &&& mask, last := true, lastBe }]
      else [{ data, last := true, lastBe := lastBe &&& laneFlags d.width }]
    (d.restart, beats)

/-- Feed one beat; the payload beats it completes come out. -/
def push (d : Depacketizer) (beat : Beat) : Depacketizer × List Beat :=
  match d.phase with
  | .header seen =>
    -- the first beat of a packet forgets the packet before
    let d := if seen.isEmpty then { d with fields := none, truncated := false } else d
    if seen.length < d.full then (d.pushHeader seen beat, [])
    else d.pushBoundary seen beat
  | .aligned => (if beat.last then d.restart else d, [beat])
  | .shifted previous => d.pushShifted previous beat

/-- Feed beats one after the other. -/
def pushAll (d : Depacketizer) (beats : List Beat) : Depacketizer × List Beat :=
  let (d, out) := beats.foldl (fun (d, out) beat =>
    let (d, more) := d.push beat
    (d, more.reverse ++ out)) (d, [])
  (d, out.reverse)

/-- Header values and payload of the first packet in `beats`; none if it ends inside its header. -/
def depacketizeBeats (d : Depacketizer) (beats : List Beat) :
    Depacketizer × Option (Fields × List Beat) :=
  let (d, payload) := d.reset.pushAll (Beat.packet beats)
  if d.truncated then (d, none)
  else ({ d with fields := none }, d.fields.map (·, payload))

/-- Header values and payload octets of a packet; none if it is shorter than its header. -/
def depacketize (d : Depacketizer) (bs : Bytes) : Depacketizer × Option (Fields × Bytes) :=
  let (d, packet) := d.depacketizeBeats (Beat.ofBytes d.width bs)
  (d, packet.map fun (values, payload) => (values, Beat.toBytes d.width payload))

end Depacketizer
end NetBoard
