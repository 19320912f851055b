/-
  NetBoard.Header.Packetizer
  ──────────────────────────
  **PUTTING A HEADER BEFORE A PACKET.**

  The packetizer sends the words of a header ahead of the beats of the
  payload.  If the header does not fill a whole number of bus words, its last
  octets wait for the first payload beat, and every payload beat is moved up
  by their number of lanes.

  Main definitions:

      Packetizer.begin      — the header words that need no payload
      Packetizer.push       — one payload beat in, one or two beats out
      Packetizer.packetize  — header and payload of a packet, as octets
-/
import NetBoard.Header.Basic
import NetBoard.Beat

namespace NetBoard

/-- A bus stage that puts a header before a packet. -/
structure Packetizer where
  header : Header
  /-- The lanes of the bus. -/
  width : Nat
  /-- The header octets that wait for the next payload beat, in the low lanes;
  none while beats pass through unmoved. -/
  carry : Option UInt64 := none
  deriving Repr, DecidableEq, Inhabited

namespace Packetizer

/-- The header octets that share a word with payload. -/
def leftover (p : Packetizer) : Nat := p.header.length % p.width

/-- Move a word up by `n` lanes. -/
def up (word : UInt64) (n : Nat) : UInt64 := word <<< UInt64.ofNat (8 * n)

/-- Move a word down by `n` lanes. -/
def down (word : UInt64) (n : Nat) : UInt64 := word >>> UInt64.ofNat (8 * n)

/-- Start a packet: send the header words that are full. -/
def begin (p : Packetizer) (values : Fields) : Packetizer × List Beat :=
  let bs := p.header.encode values
  let full := p.header.length / p.width * p.width
  let tail := bs.drop full
  let carry := if p.leftover = 0 then none else some (UInt64.ofNat (Bytes.toNatLE tail))
  ({ p with carry }, (Bytes.words p.width (bs.take full)).map Beat.inner)

/-- Feed one payload beat.  A last beat whose octets do not fit beside the
leftover is followed by a beat of its own. -/
def push (p : Packetizer) (beat : Beat) : Packetizer × List Beat :=
  match p.carry with
  | none => (p, [beat])
  | some carry =>
    let l := p.leftover
    let data := (carry ||| up beat.data l) &&& lanesMask p.width
    let rest := down beat.data (p.width - l) &&& lanesMask p.width
    if !beat.last then ({ p with carry := some rest }, [{ data }])
    else
      let lastBe := rotateFlags beat.lastBe l p.width
      let beats :=
        -- the flag wrapped round: the last octets need a word of their own
        if beat.lastBe > lastBe then [{ data }, { data := rest, last := true, lastBe }]
        else [{ data, last := true, lastBe }]
      ({ p with carry := none }, beats)

/-- Feed beats one after the other. -/
def pushAll (p : Packetizer) (beats : List Beat) : Packetizer × List Beat :=
  let (p, out) := beats.foldl (fun (p, out) beat =>
    let (p, more) := p.push beat
    (p, more.reverse ++ out)) (p, [])
  (p, out.reverse)

/-- Header and payload of a whole packet; without payload the header alone is
the packet.  Beats after the last one of the packet are left out. -/
def packetizeBeats (p : Packetizer) (values : Fields) (payload : List Beat) :
    Packetizer × List Beat :=
  if payload.isEmpty then
    ({ p with carry := none }, Beat.ofBytes p.width (p.header.encode values))
  else
    let (p, head) := p.begin values
    let (p, body) := p.pushAll (Beat.packet payload)
    (p, head ++ body)

/-- The octets of a packet with its header. -/
def packetize (p : Packetizer) (values : Fields) (payload : Bytes) : Packetizer × Bytes :=
  let (p, beats) := p.packetizeBeats values (Beat.ofBytes p.width payload)
  (p, Beat.toBytes p.width beats)

end Packetizer
end NetBoard
