/-
  NetBoard.Etherbone.Record
  ─────────────────────────
  **RECORDS OF BUS ACCESSES.**

  A record is a header and a list of 32-bit words: an address and the words
  to be written there, then a return address and the addresses to be read.
  The receiver turns the words one by one into accesses; the answer to the
  reads is a record of writes to the return address.

  Main definitions:

      Receiver.next   — one word into the receiver
      Access.run      — one access on the bus
      answer          — the record that answers the reads
-/
import NetBoard.Etherbone.Sram
import NetBoard.Header.Depacketizer
import NetBoard.Text.Record

namespace NetBoard.Etherbone

/-! ## §1. Headers. -/

/-- The header of a packet. -/
def packetHeader : Header where
  fields :=
    [⟨"magic", 0, 0, 16⟩, ⟨"version", 2, 4, 4⟩, ⟨"nr", 2, 2, 1⟩, ⟨"pr", 2, 1, 1⟩, ⟨"pf", 2, 0, 1⟩,
     ⟨"addr_size", 3, 4, 4⟩, ⟨"port_size", 3, 0, 4⟩]
  length := 8

/-- The header of a record. -/
def recordHeader : Header where
  fields :=
    [⟨"bca", 0, 0, 1⟩, ⟨"rca", 0, 1, 1⟩, ⟨"rff", 0, 2, 1⟩, ⟨"cyc", 0, 4, 1⟩, ⟨"wca", 0, 5, 1⟩,
     ⟨"wff", 0, 6, 1⟩, ⟨"byte_enable", 1, 0, 8⟩, ⟨"wcount", 2, 0, 8⟩, ⟨"rcount", 3, 0, 8⟩]
  length := 4

/-- The part of a record header that matters: lanes, writes and reads. -/
structure Shape where
  byteEnable : UInt8
  writes : UInt8
  reads : UInt8
  deriving Repr, DecidableEq, Inhabited

namespace Shape

/-- The shape in a record header. -/
def ofFields (values : Fields) : Shape where
  byteEnable := UInt8.ofNat (values.get "byte_enable")
  writes := UInt8.ofNat (values.get "wcount")
  reads := UInt8.ofNat (values.get "rcount")

/-- The words that follow the header: writes and reads each have an address in front. -/
def words (s : Shape) : Nat :=
  (if s.writes = 0 then 0 else 1 + s.writes.toNat) + (if s.reads = 0 then 0 else 1 + s.reads.toNat)

end Shape

/-! ## §2. Accesses. -/

/-- One access to the bus, or its result. -/
structure Access where
  isWrite : Bool
  /-- The number of the word. -/
  word : UInt32
  data : UInt32
  /-- Of a read, where its result is to be written. -/
  returnTo : UInt32
  byteEnable : UInt8
  /-- The accesses of its half of the record. -/
  count : UInt8
  /-- Is it the last of its half? -/
  last : Bool
  deriving Repr, DecidableEq, Inhabited

/-- Run an access.  A read gives a result, to be written to its return address. -/
def Access.run (a : Access) (m : Sram) : Sram × Option Access :=
  let sel := a.byteEnable &&& 0x0f
  if a.isWrite then (m.write a.word a.data sel, none)
  else (m, some { a with isWrite := true, data := m.read a.word sel })

/-! ## §3. The receiver. -/

/-- What the next word of a record is. -/
inductive Receiver where
  /-- The first word. -/
  | idle
  /-- A word to be written, the `counter`-th from `base` on. -/
  | writes (base : UInt32) (counter : Nat)
  /-- The return address of the reads. -/
  | returnAddress
  /-- An address to be read, the `counter`-th. -/
  | reads (returnTo : UInt32) (counter : Nat)
  deriving Repr, DecidableEq, Inhabited

namespace Receiver

/-- The state in log lines. -/
def text : Receiver → String
  | idle => "Idle"
  | writes base counter =>
    Text.record "ReceiveWrites" [("base_addr", toString base), ("counter", toString counter)]
  | returnAddress => "ReceiveBaseRetAddr"
  | reads returnTo counter =>
    Text.record "ReceiveReads" [("base_ret_addr", toString returnTo), ("counter", toString counter)]

/-- Feed one word of a record: the next state, and the access it completes. -/
def next (state : Receiver) (shape : Shape) (word : UInt32) : Receiver × Option Access :=
  match state with
  | idle =>
    if shape.writes ≠ 0 then (writes word 0, none)
    else if shape.reads ≠ 0 then (reads word 0, none)
    else (idle, none)
  | writes base counter =>
    -- the words are numbered from zero, so the last one has number `writes - 1`
    let last := counter + 1 == shape.writes.toNat
    let access : Access :=
      { isWrite := true, word := (base >>> 2) + UInt32.ofNat counter, data := word
        returnTo := base, byteEnable := shape.byteEnable, count := shape.writes, last }
    let after :=
      if !last then writes base (counter + 1)
      else if shape.reads ≠ 0 then returnAddress
      else idle
    (after, some access)
  | returnAddress => (reads word 0, none)
  | reads returnTo counter =>
    let last := counter + 1 == shape.reads.toNat
    let access : Access :=
      { isWrite := false, word := word >>> 2, data := 0
        returnTo, byteEnable := shape.byteEnable, count := shape.reads, last }
    (if last then idle else reads returnTo (counter + 1), some access)

end Receiver

/-! ## §4. Answers. -/

/-- The octets of words, each sent most significant octet first. -/
def wordOctets (words : List UInt32) : Bytes := words.flatMap fun w => Bytes.ofNatBE 4 w.toNat

/-- The words written by octets, four at a time. -/
def octetWords (bs : Bytes) : List UInt32 := (bs.words 4).map fun w => UInt32.ofNat (Bytes.toNatBE w)

/-- The record that answers reads: their return address and their results. -/
def answer (p : Packetizer) (results : List Access) : Packetizer × Bytes :=
  let words := (results.head?.map (·.returnTo)).toList ++ results.map (·.data)
  let byteEnable := (results.head?.map (·.byteEnable.toNat)).getD 0
  let values := ((({} : Fields).set "byte_enable" byteEnable).set "wcount" (words.length - 1)).set
    "rcount" 0
  p.packetize values (wordOctets words)

end NetBoard.Etherbone
