/-
  NetBoard.Proofs.Checked.Endpoint
  ────────────────────────────────
  **BUS ACCESSES, CHECKED.**

  The receiver compares its counter with one less than the number of writes or
  reads, in eight bits.  Whatever header a record has, the receiver is only in
  a half of the record that is not empty, and its counter is below the number
  of accesses there: that is what `Receiver.Fits` says, and every word keeps
  it.  A word of the memory is looked up only inside the memory.

  Main definitions:

      Receiver.Fits         — the state is one of a record of this shape
      Endpoint.Ready        — the stages are formed, and the receiver fits its record

  Main statements:

      Receiver.Fits.next!   — one word into the receiver
      Station.Ready.step!   — a step of the endpoint
-/
import NetBoard.Proofs.Checked.Transport
import NetBoard.Proofs.Etherbone.Refinement

namespace NetBoard.Etherbone

open Checked

/-! ## §1. The memory. -/

namespace Sram

/-- Lane after lane, each mask moved to its place. -/
def laneMask! (sel : UInt8) : Checked UInt32 :=
  (List.range 4).foldlM (fun mask i => do
    let lane ← shift 8 i
    if sel.toNat.testBit lane then
      let bits ← shift 32 (8 * i)
      return mask ||| UInt32.ofNat (0xff <<< bits)
    else return mask) 0

/-- A word of the memory under its lanes; a word outside is zero. -/
def read! (m : Sram) (word : UInt32) (sel : UInt8) : Checked UInt32 := do
  match m.index? word with
  | none => return 0
  | some i => return (← index m.words.toList i) &&& (← laneMask! sel)

/-- The lanes of a word are replaced; nothing is written outside. -/
def write! (m : Sram) (word data : UInt32) (sel : UInt8) : Checked Sram := do
  match m.index? word with
  | none => return m
  | some i =>
    let mask ← laneMask! sel
    let old ← index m.words.toList i
    return { m with words := m.words.setIfInBounds i ((old &&& ~~~mask) ||| (data &&& mask)) }

/-- Four lanes of eight bits: the last shift is by 24. -/
theorem laneMask!_eq (sel : UInt8) : laneMask! sel = .ok (laneMask sel) := by
  refine (foldlM_ok (P := fun _ => True) (fun i hi mask _ => ⟨?_, trivial⟩) trivial).1
  have hlt : i < 4 := List.mem_range.1 hi
  rw [shift_ok (by omega), ok_bind]
  split
  · rw [shift_ok (by omega)]
    rfl
  · rfl

/-- A word that is looked up is there. -/
theorem index_of_index? {m : Sram} {word : UInt32} {i : Nat} (h : m.index? word = some i) :
    index m.words.toList i = .ok (m.words.getD i 0) := by
  unfold index? at h
  dsimp only at h
  split at h
  · next hinside =>
    obtain rfl := Option.some.inj h
    refine index_ok ?_
    rw [Array.getElem?_toList, Array.getElem?_eq_getElem hinside.2, Array.getD_eq_getD_getElem?,
      Array.getElem?_eq_getElem hinside.2]
    rfl
  · cases h

/-- Any word is read, inside of the memory or not. -/
theorem read!_eq (m : Sram) (word : UInt32) (sel : UInt8) :
    m.read! word sel = .ok (m.read word sel) := by
  unfold read! read
  cases hplace : m.index? word with
  | none => rfl
  | some i =>
    dsimp only
    rw [index_of_index? hplace, laneMask!_eq]
    rfl

/-- Any word is written, inside of the memory or not. -/
theorem write!_eq (m : Sram) (word data : UInt32) (sel : UInt8) :
    m.write! word data sel = .ok (m.write word data sel) := by
  unfold write! write
  cases hplace : m.index? word with
  | none => rfl
  | some i =>
    dsimp only
    rw [laneMask!_eq, ok_bind, index_of_index? hplace]
    rfl

end Sram

/-- One access of the bus, on the four lanes that it has. -/
def Access.run! (a : Access) (m : Sram) : Checked (Sram × Option Access) := do
  let sel := a.byteEnable &&& 0x0f
  if a.isWrite then return (← m.write! a.word a.data sel, none)
  else return (m, some { a with isWrite := true, data := ← m.read! a.word sel })

/-- The bus serves any access. -/
theorem Access.run!_eq (a : Access) (m : Sram) : a.run! m = .ok (a.run m) := by
  unfold run! run
  dsimp only
  split
  · rw [Sram.write!_eq]
    rfl
  · rw [Sram.read!_eq]
    rfl

/-! ## §2. The receiver. -/

namespace Receiver

/-- The last access of a half has the number of accesses less one. -/
def next! (state : Receiver) (shape : Shape) (word : UInt32) :
    Checked (Receiver × Option Access) := do
  match state with
  | idle =>
    if shape.writes ≠ 0 then return (writes word 0, none)
    else if shape.reads ≠ 0 then return (reads word 0, none)
    else return (idle, none)
  | writes base counter =>
    let final ← sub shape.writes.toNat 1
    let last := counter == final
    let access : Access :=
      { isWrite := true, word := (base >>> 2) + UInt32.ofNat counter, data := word
        returnTo := base, byteEnable := shape.byteEnable, count := shape.writes, last }
    if !last then return (writes base (← add 8 counter 1), some access)
    else if shape.reads ≠ 0 then return (returnAddress, some access)
    else return (idle, some access)
  | returnAddress => return (reads word 0, none)
  | reads returnTo counter =>
    let final ← sub shape.reads.toNat 1
    let last := counter == final
    let access : Access :=
      { isWrite := false, word := word >>> 2, data := 0
        returnTo, byteEnable := shape.byteEnable, count := shape.reads, last }
    if last then return (idle, some access)
    else return (reads returnTo (← add 8 counter 1), some access)

/-- The receiver is in a half of the record that has accesses left. -/
def Fits (shape : Shape) : Receiver → Prop
  | idle => True
  | writes _ counter => counter < shape.writes.toNat
  | returnAddress => 0 < shape.reads.toNat
  | reads _ counter => counter < shape.reads.toNat

/-- A half of a record that is not empty has an access. -/
theorem pos_of_ne_zero {count : UInt8} (h : count ≠ 0) : 0 < count.toNat :=
  Nat.pos_of_ne_zero fun hzero => h (UInt8.toNat_inj.1 hzero)

/-- Below the number of accesses, the last one is recognized either way. -/
theorem last_eq {counter count : Nat} (h : counter < count) :
    (counter == count - 1) = (counter + 1 == count) := by
  rw [Bool.eq_iff_iff, beq_iff_eq, beq_iff_eq]
  omega

/-- **The receiver takes any word**, and stays inside of its record. -/
theorem Fits.next! {shape : Shape} {state : Receiver} (h : state.Fits shape) (word : UInt32) :
    state.next! shape word = .ok (state.next shape word) ∧ (state.next shape word).1.Fits shape := by
  unfold Receiver.next! next
  cases state with
  | idle =>
    dsimp only
    split
    · next hwrites => exact ⟨rfl, pos_of_ne_zero hwrites⟩
    · split
      · next hreads => exact ⟨rfl, pos_of_ne_zero hreads⟩
      · exact ⟨rfl, trivial⟩
  | writes base counter =>
    have hlt : counter < shape.writes.toNat := h
    have hbits := shape.writes.toNat_lt
    dsimp only
    rw [sub_ok (by omega), ok_bind, last_eq hlt]
    cases hlast : counter + 1 == shape.writes.toNat with
    | true =>
      rw [Bool.not_true, if_neg Bool.false_ne_true, if_neg Bool.false_ne_true]
      split
      · next hreads => exact ⟨rfl, pos_of_ne_zero hreads⟩
      · exact ⟨rfl, trivial⟩
    | false =>
      have hmore : counter + 1 ≠ shape.writes.toNat := beq_eq_false_iff_ne.1 hlast
      rw [Bool.not_false, if_pos rfl, if_pos rfl, add_ok (by omega)]
      exact ⟨rfl, show counter + 1 < shape.writes.toNat by omega⟩
  | returnAddress => exact ⟨rfl, h⟩
  | reads returnTo counter =>
    have hlt : counter < shape.reads.toNat := h
    have hbits := shape.reads.toNat_lt
    dsimp only
    rw [sub_ok (by omega), ok_bind, last_eq hlt]
    cases hlast : counter + 1 == shape.reads.toNat with
    | true => exact ⟨rfl, trivial⟩
    | false =>
      have hmore : counter + 1 ≠ shape.reads.toNat := beq_eq_false_iff_ne.1 hlast
      rw [if_neg Bool.false_ne_true, if_neg Bool.false_ne_true, add_ok (by omega)]
      exact ⟨rfl, show counter + 1 < shape.reads.toNat by omega⟩

end Receiver

/-! ## §3. Records. -/

/-- No field of a packet's header lies outside of it, or is too wide for the machine. -/
theorem packetHeader_proper : packetHeader.Proper := by decide

/-- The same holds of a record's header. -/
theorem recordHeader_proper : recordHeader.Proper := by decide

/-- Every four octets are read as a word. -/
def octetWords! (bs : Bytes) : Checked (List UInt32) :=
  (bs.words 4).mapM fun w => do return UInt32.ofNat (← wordAt w 0)

/-- Of whole words, every one has its four octets. -/
theorem octetWords!_eq {bs : Bytes} {n : Nat} (h : bs.length = 4 * n) :
    octetWords! bs = .ok (octetWords bs) := by
  refine mapM_ok fun w hw => ?_
  have hlen : w.length = 4 := by
    obtain ⟨i, hi⟩ := List.getElem?_of_mem hw
    rw [Bytes.getElem?_words (by decide)] at hi
    split at hi
    · next hlt =>
      obtain rfl := Option.some.inj hi
      rw [List.length_take, List.length_drop]
      omega
    · cases hi
  rw [wordAt_ok (by omega), List.drop_zero, List.take_of_length_le (by omega)]
  rfl

/-- The return address is that of the first result, if there is one. -/
def answer! (p : Packetizer) (results : List Access) : Checked (Packetizer × Bytes) := do
  let first ← if results.isEmpty then pure none else do pure (some (← index results 0))
  let words := (first.map (·.returnTo)).toList ++ results.map (·.data)
  let byteEnable := (first.map (·.byteEnable.toNat)).getD 0
  let values := ((({} : Fields).set "byte_enable" byteEnable).set "wcount" (words.length - 1)).set
    "rcount" 0
  p.packetize! values (wordOctets words)

/-- A record without a result is answered as well. -/
theorem answer!_eq {p : Packetizer} (hp : p.Writes recordHeader) (results : List Access) :
    answer! p results = .ok (answer p results) := by
  cases results with
  | nil => exact hp.packetize!_eq recordHeader_proper _ _
  | cons first rest => exact hp.packetize!_eq recordHeader_proper _ _

namespace Endpoint

/-- A header is put before the payload, and the packet waits to be sent. -/
def reply! (e : Endpoint) (nr pr : Nat) (payload : Bytes) : Checked Endpoint := do
  let values := ((((((({} : Fields).set "magic" magic).set "version" 1).set "nr" nr).set
    "pr" pr).set "pf" 0).set "addr_size" 4).set "port_size" 4
  let (packetPacketizer, bs) ← e.packetPacketizer.packetize! values payload
  let packet ← Udp.UserPacket.ofBytes! e.requester e.port e.port bs busWidth
  return { e with packetPacketizer, replies := e.replies ++ [packet] }

/-- One access; the last result of a record is answered with all of them. -/
def serveOne! (e : Endpoint) (a : Access) : Checked Endpoint := do
  let stats :=
    if a.isWrite then { e.stats with writes := e.stats.writes + 1 }
    else { e.stats with reads := e.stats.reads + 1 }
  let (bus, result) ← a.run! e.bus
  let e := { e with bus, stats }
  match result with
  | none => return e
  | some result =>
    let results := e.results ++ [result]
    if result.last then
      let (recordPacketizer, record) ← answer! e.recordPacketizer results
      { e with recordPacketizer, results := [] }.reply! 0 0 record
    else return { e with results }

/-- Accesses are served while there is room for a reply. -/
def serveAll! (e : Endpoint) : List Access → Checked Endpoint
  | [] => return { e with accesses := [] }
  | a :: rest =>
    if e.hasReplyRoom then do serveAll! (← e.serveOne! a) rest
    else return { e with accesses := a :: rest }

/-- All accesses that wait for the bus. -/
def serve! (e : Endpoint) : Checked (Outcome Endpoint) := do
  let served ← e.serveAll! e.accesses
  return { state := served, progress := e.hasReplyRoom && !e.accesses.isEmpty }

/-- One word into the receiver, with the access that it completes. -/
def feedOne! (e : Endpoint) (shape : Shape) (word : UInt32) :
    Checked (Endpoint × List Log.Line) := do
  let (receiver, access) ← e.receiver.next! shape word
  let log :=
    if receiver = e.receiver then []
    else [⟨Log.extensive, source,
      s!"record receiver {e.receiver.text} -> {receiver.text}"⟩]
  return ({ e with receiver, accesses := e.accesses ++ access.toList }, log)

/-- Words are fed while there is room for an access; the others wait. -/
def feedAll! (e : Endpoint) (shape : Shape) (words : List UInt32) : Checked (Outcome Endpoint) :=
  match words with
  | [] => return .idle { e with inbound := none }
  | word :: rest =>
    if e.accesses.length < e.bufferDepth then do
      let (e, log) ← e.feedOne! shape word
      andThen (return .moved e log) fun e => e.feedAll! shape rest
    else return .idle { e with inbound := some ⟨shape, word :: rest⟩ }

/-- The words of the record that was taken last. -/
def feed! (e : Endpoint) : Checked (Outcome Endpoint) :=
  match e.inbound with
  | none => return .idle e
  | some record => e.feedAll! record.shape record.words

/-- A record is as long as its header says, or it is none. -/
def readRecord! (e : Endpoint) (payload : Bytes) : Checked (Endpoint × Option Inbound) := do
  let (recordDepacketizer, record) ← e.recordDepacketizer.depacketize! payload
  let e := { e with recordDepacketizer }
  match record with
  | none => return (e, none)
  | some (values, data) =>
    let shape := Shape.ofFields values
    if data.length = 4 * shape.words then
      let words ← octetWords! data
      return (e, some ⟨shape, words⟩)
    else return (e, none)

/-- A probe is answered at once; the words of a record wait to be fed. -/
def handle! (e : Endpoint) (values : Fields) (payload : Bytes) : Checked (Outcome Endpoint) := do
  if values.get "pf" = 1 then
    let stats := { e.stats with probes := e.stats.probes + 1 }
    let answered ← { e with stats }.reply! (values.get "nr") 1 payload
    return .moved answered [⟨Log.high, source, s!"probe from {e.requester.text}"⟩]
  else
    match ← e.readRecord! payload with
    | (e, some record) =>
      let stats := { e.stats with records := e.stats.records + 1 }
      let shape := record.shape
      return .moved { e with stats, receiver := .idle, inbound := some record }
        [⟨Log.high, source,
          s!"record from {e.requester.text}, {shape.writes} writes {shape.reads} reads"⟩]
    | (e, none) =>
      let stats := { e.stats with malformed := e.stats.malformed + 1 }
      return .moved { e with stats }
        [⟨Log.medium, source,
          s!"packet from {e.requester.text} dropped, not a single well formed record"⟩]

/-- One packet: too short, of another protocol, or one that is handled. -/
def accept! (e : Endpoint) (packet : Udp.UserPacket) : Checked (Outcome Endpoint) := do
  let bs ← packet.bytes! busWidth
  let (packetDepacketizer, parts) ← e.packetDepacketizer.depacketize! bs
  let e := { e with packetDepacketizer }
  match parts with
  | none =>
    let stats := { e.stats with malformed := e.stats.malformed + 1 }
    return .moved { e with stats }
      [⟨Log.medium, source,
        s!"packet from {packet.ip.text} dropped, {bs.length} bytes is shorter than the header"⟩]
  | some (values, payload) =>
    if values.get "magic" = magic then
      let asked := { e with requester := packet.ip }
      asked.handle! values payload
    else
      let stats := { e.stats with badMagic := e.stats.badMagic + 1 }
      return .moved { e with stats }
        [⟨Log.medium, source, s!"packet from {packet.ip.text} dropped, bad magic"⟩]

/-- The stages are formed, and the receiver is in the record whose words it is fed. -/
structure Ready (e : Endpoint) : Prop extends e.Formed where
  fits : ∀ record, e.inbound = some record → e.receiver.Fits record.shape

/-- A new endpoint has no record, so its receiver fits. -/
theorem ready_make? {port : UInt16} {width : Nat} {bus : Sram} {bufferDepth : Nat} {e : Endpoint}
    (h : make? port width bus bufferDepth = .ok e) : e.Ready :=
  have hfresh := History.fresh_make h 1
  ⟨hfresh.endpoint, fun _ hinbound => nomatch hinbound.symm.trans hfresh.rest.inbound⟩

variable {e : Endpoint}

/-- A formed endpoint writes the header of a packet. -/
theorem Formed.writesPacket (he : e.Formed) : e.packetPacketizer.Writes packetHeader :=
  ⟨he.packetPacketizer.1, he.packetPacketizer.2 ▸ busWidth_supported⟩

/-- It writes the header of a record. -/
theorem Formed.writesRecord (he : e.Formed) : e.recordPacketizer.Writes recordHeader :=
  ⟨he.recordPacketizer.1, he.recordPacketizer.2 ▸ busWidth_supported⟩

/-- It reads the header of a packet. -/
theorem Formed.readsPacket (he : e.Formed) : e.packetDepacketizer.Reads packetHeader :=
  ⟨he.packetDepacketizer.1, he.packetDepacketizer.2 ▸ busWidth_supported⟩

/-- It reads the header of a record. -/
theorem Formed.readsRecord (he : e.Formed) : e.recordDepacketizer.Reads recordHeader :=
  ⟨he.recordDepacketizer.1, he.recordDepacketizer.2 ▸ busWidth_supported⟩

/-! ## §4. The bus. -/

/-- Any payload is sent as a reply. -/
theorem Formed.reply! (he : e.Formed) (nr pr : Nat) (payload : Bytes) :
    e.reply! nr pr payload = .ok (e.reply nr pr payload) := by
  rw [Endpoint.reply!, he.writesPacket.packetize!_eq packetHeader_proper, ok_bind]
  dsimp only
  rw [Udp.UserPacket.ofBytes!_eq busWidth_supported]
  rfl

/-- The stages are formed behind a reply as before it. -/
theorem Formed.reply (he : e.Formed) (nr pr : Nat) (payload : Bytes) :
    (e.reply nr pr payload).Formed := by
  unfold Endpoint.reply
  dsimp only
  rw [he.writesPacket.packetize packetHeader_sound]
  exact ⟨he.1, he.2, he.3, he.4, he.5⟩

/-- Any access is served. -/
theorem Formed.serveOne! (he : e.Formed) (a : Access) : e.serveOne! a = .ok (e.serveOne a) := by
  unfold Endpoint.serveOne! serveOne
  rw [Access.run!_eq, ok_bind]
  dsimp only
  cases (a.run e.bus).2 with
  | none => rfl
  | some result =>
    dsimp only
    split
    · rw [answer!_eq he.writesRecord, ok_bind]
      have hnext : (answer e.recordPacketizer (e.results ++ [result])).1.header = recordHeader ∧
          (answer e.recordPacketizer (e.results ++ [result])).1.width = busWidth := by
        rw [answer_eq he.recordPacketizer.1 he.recordPacketizer.2]
        exact he.recordPacketizer
      refine Formed.reply! ?_ 0 0 _
      exact ⟨he.1, he.2, hnext, he.4, he.5⟩
    · rfl

/-- So is any number of them. -/
theorem Formed.serveAll! (he : e.Formed) (l : List Access) :
    e.serveAll! l = .ok (e.serveAll l) := by
  induction l generalizing e with
  | nil => rfl
  | cons a rest ih =>
    unfold Endpoint.serveAll! serveAll
    split
    · rw [he.serveOne!, ok_bind]
      exact ih (serveOne_continues he a rest).formed
    · rfl

/-- The bus leaves the receiver and its record alone. -/
theorem Ready.serve! (he : e.Ready) : Runs Ready e.serve! e.serve := by
  obtain ⟨hreceiver, hinbound⟩ := serveAll_frame e e.accesses
  rw [Endpoint.serve!, he.toFormed.serveAll!]
  refine .pure ⟨(serveAll_continues he.toFormed e.accesses []).formed, fun record hrecord => ?_⟩
  show (e.serveAll e.accesses).receiver.Fits record.shape
  rw [hreceiver]
  exact he.fits record (hinbound.symm.trans hrecord)

/-! ## §5. Words and packets. -/

/-- While words are fed, the receiver fits the record they are of. -/
theorem Formed.feedAll! (he : e.Formed) {shape : Shape} (hfits : e.receiver.Fits shape)
    (words : List UInt32) : Runs Ready (e.feedAll! shape words) (e.feedAll shape words) := by
  induction words generalizing e with
  | nil => exact .pure ⟨⟨he.1, he.2, he.3, he.4, he.5⟩, fun _ h => nomatch h⟩
  | cons word rest ih =>
    unfold Endpoint.feedAll! feedAll
    split
    · obtain ⟨hok, hnext⟩ := hfits.next! word
      have hfed : Runs (fun e => e.Formed ∧ e.receiver.Fits shape)
          (.ok (.moved (e.feedOne shape word).1 (e.feedOne shape word).2))
          (.moved (e.feedOne shape word).1 (e.feedOne shape word).2) :=
        .pure ⟨⟨he.1, he.2, he.3, he.4, he.5⟩, hnext⟩
      have hone : e.feedOne! shape word = .ok (e.feedOne shape word) := by
        rw [feedOne!, hok]
        rfl
      rw [hone, ok_bind]
      exact hfed.andThen fun _ h => ih h.1 h.2
    · refine .pure ⟨⟨he.1, he.2, he.3, he.4, he.5⟩, fun record hrecord => ?_⟩
      obtain rfl := Option.some.inj hrecord
      exact hfits

/-- The record whose words wait is the one that the receiver is in. -/
theorem Ready.feed! (he : e.Ready) : Runs Ready e.feed! e.feed := by
  unfold Endpoint.feed! feed
  cases hinbound : e.inbound with
  | none => exact .pure he
  | some record => exact he.toFormed.feedAll! (he.fits record hinbound) record.words

/-- Any payload is read as a record, or is none. -/
theorem Formed.readRecord! (he : e.Formed) (payload : Bytes) :
    e.readRecord! payload = .ok (e.readRecord payload) := by
  unfold Endpoint.readRecord! readRecord
  rw [he.readsRecord.depacketize!_eq recordHeader_proper, ok_bind]
  dsimp only
  cases (e.recordDepacketizer.depacketize payload).2 with
  | none => rfl
  | some record =>
    obtain ⟨values, data⟩ := record
    dsimp only
    rw [Option.bind_some]
    by_cases hwhole : data.length = 4 * (Shape.ofFields values).words
    · rw [if_pos hwhole, octetWords!_eq hwhole]
      exact congrArg Except.ok (congrArg _ (if_pos hwhole).symm)
    · rw [if_neg hwhole]
      exact congrArg Except.ok (congrArg _ (if_neg hwhole).symm)

/-- Any payload is handled behind any header. -/
theorem Ready.handle! (he : e.Ready) (values : Fields) (payload : Bytes) :
    Runs Ready (e.handle! values payload) (e.handle values payload) := by
  obtain ⟨hf, hfits⟩ := he
  unfold Endpoint.handle! handle
  split
  · have hcounted : Formed { e with stats := { e.stats with probes := e.stats.probes + 1 } } :=
      ⟨hf.1, hf.2, hf.3, hf.4, hf.5⟩
    dsimp only
    rw [hcounted.reply!, ok_bind]
    exact .pure ⟨hcounted.reply (values.get "nr") 1 payload, hfits⟩
  · obtain ⟨recordDepacketizer, hdepacketizer, hread⟩ := readRecord_eq hf payload
    rw [hf.readRecord!, ok_bind, hread]
    generalize Option.map _ (record? payload) = found
    cases found with
    | none => exact .pure ⟨⟨hf.1, hf.2, hf.3, hdepacketizer, hf.5⟩, hfits⟩
    | some record =>
      -- a record starts with a receiver that has not seen a word
      exact .pure ⟨⟨hf.1, hf.2, hf.3, hdepacketizer, hf.5⟩, fun _ _ => trivial⟩

/-- Any packet is accepted or counted. -/
theorem Ready.accept! (he : e.Ready) (packet : Udp.UserPacket) :
    Runs Ready (e.accept! packet) (e.accept packet) := by
  obtain ⟨hf, hfits⟩ := he
  obtain ⟨hnext, -⟩ := depacketize_bus hf.packetDepacketizer.1 hf.packetDepacketizer.2 (by decide)
    (packet.bytes busWidth)
  unfold Endpoint.accept! accept
  rw [packet.bytes!_eq busWidth_supported, ok_bind,
    hf.readsPacket.depacketize!_eq packetHeader_proper, ok_bind]
  dsimp only
  cases (e.packetDepacketizer.depacketize (packet.bytes busWidth)).2 with
  | none => exact .pure ⟨⟨hf.1, hnext, hf.3, hf.4, hf.5⟩, hfits⟩
  | some parts =>
    obtain ⟨values, payload⟩ := parts
    dsimp only
    split
    · refine Ready.handle! ?_ values payload
      exact ⟨⟨hf.1, hnext, hf.3, hf.4, hf.5⟩, hfits⟩
    · exact .pure ⟨⟨hf.1, hnext, hf.3, hf.4, hf.5⟩, hfits⟩

end Endpoint

/-! ## §6. The port. -/

namespace Station

/-- The oldest reply is put into the hold, which must be free. -/
def transmitNext! (s : Station) : Checked (Outcome Station) := do
  match s.endpoint.replies with
  | [] => return .idle s
  | packet :: replies =>
    let (heldOut, outbound) ← send s.endpoint.heldOut packet s.link.outbound
    let stats := { s.endpoint.stats with replies := s.endpoint.stats.replies + 1 }
    return .moved { endpoint := { s.endpoint with replies, heldOut, stats }
                    link := { s.link with outbound } }

/-- The reply that is held goes first. -/
def transmit! (s : Station) : Checked (Outcome Station) :=
  afterHeld s.endpoint.heldOut s.link.outbound
    (fun heldOut outbound =>
      { endpoint := { s.endpoint with heldOut }, link := { s.link with outbound } })
    transmitNext! s

/-- A packet is taken when nothing is left of the one before. -/
def receive! (s : Station) : Checked (Outcome Station) :=
  if s.endpoint.isReady then
    match s.link.inbound.take with
    | none => return .idle s
    | some (packet, inbound) =>
      map (fun endpoint => { endpoint, link := { s.link with inbound } })
        (s.endpoint.accept! packet)
  else return .idle s

/-- A part of a step that only the endpoint makes. -/
def inside! (f : Endpoint → Checked (Outcome Endpoint)) (s : Station) : Checked (Outcome Station) :=
  map (fun endpoint => { s with endpoint }) (f s.endpoint)

/-- Replies leave, accesses are served, words are fed, and a packet is taken. -/
def step! (s : Station) : Checked (Outcome Station) :=
  andThen (andThen (andThen s.transmit! (inside! Endpoint.serve!)) (inside! Endpoint.feed!)) receive!

/-- The endpoint of the station is ready. -/
abbrev Ready (s : Station) : Prop := s.endpoint.Ready

variable {s : Station}

/-- Any reply is sent. -/
theorem Ready.transmitNext! (hs : s.Ready) (hfree : s.endpoint.heldOut = none) :
    Runs Ready s.transmitNext! s.transmitNext := by
  obtain ⟨hf, hfits⟩ := hs
  unfold Station.transmitNext! transmitNext
  cases s.endpoint.replies with
  | nil => exact .pure ⟨hf, hfits⟩
  | cons packet replies =>
    dsimp only
    rw [send_ok hfree]
    exact .pure ⟨⟨hf.1, hf.2, hf.3, hf.4, hf.5⟩, hfits⟩

/-- Transmission is the next reply behind the hold. -/
theorem transmit_eq (s : Station) :
    s.transmit = Outcome.afterHeld s.endpoint.heldOut s.link.outbound
      (fun heldOut outbound =>
        { endpoint := { s.endpoint with heldOut }, link := { s.link with outbound } })
      transmitNext s := by
  unfold transmit Outcome.afterHeld
  grind

/-- The hold is free where a reply is put into it. -/
theorem Ready.transmit! (hs : s.Ready) : Runs Ready s.transmit! s.transmit := by
  obtain ⟨hf, hfits⟩ := hs
  rw [Station.transmit!, s.transmit_eq]
  refine Runs.afterHeld (·.endpoint.heldOut) ⟨hf, hfits⟩ (fun _ => ?_)
    fun _ hs hfree => Ready.transmitNext! hs hfree
  exact ⟨⟨⟨hf.1, hf.2, hf.3, hf.4, hf.5⟩, hfits⟩, rfl⟩

/-- Any packet is taken. -/
theorem Ready.receive! (hs : s.Ready) : Runs Ready s.receive! s.receive := by
  unfold Station.receive! receive
  split
  · cases s.link.inbound.take with
    | none => exact .pure hs
    | some taken =>
      obtain ⟨packet, inbound⟩ := taken
      exact (Endpoint.Ready.accept! hs packet).map fun _ he => he
  · exact .pure hs

/-- What runs in the endpoint runs in its station. -/
theorem inside!_runs {f : Endpoint → Checked (Outcome Endpoint)} {g : Endpoint → Outcome Endpoint}
    (h : Runs Endpoint.Ready (f s.endpoint) (g s.endpoint)) :
    Runs Ready (inside! f s) (inside g s) := h.map fun _ he => he

/-- Whatever packets come, they do not stop an endpoint. -/
theorem Ready.step! (hs : s.Ready) : Runs Ready s.step! s.step :=
  ((hs.transmit!.andThen fun _ hs => inside!_runs (Endpoint.Ready.serve! hs)).andThen
    fun _ hs => inside!_runs (Endpoint.Ready.feed! hs)).andThen fun _ hs => hs.receive!

end Station
end NetBoard.Etherbone
