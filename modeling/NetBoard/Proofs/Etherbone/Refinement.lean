/-
  NetBoard.Proofs.Etherbone.Refinement
  ────────────────────────────────────
  **AN ENDPOINT SENDS WHAT THE INTERPRETER SENDS.**

  At any time the work of an endpoint is spread over its queues: words that
  are not fed yet, accesses that wait for the bus, results without an answer,
  replies that wait to be sent.  All of it belongs to one packet, the last one
  taken, but for the replies, which are finished.  If the queues were run to
  their end at once, the endpoint would have sent what the interpreter sends
  for the packets taken so far, and its memory would be the interpreter's.
  Every part of a step keeps that, whatever is full and whatever arrives.

  Main statements:

      serve_continues, feed_continues  — inner work changes nothing of that
      accept_tracks                    — nor does a packet, run by the interpreter too
      step_tracks                      — nor one step of all parts
      next_balanced                    — one event
      replies_refine_interpreter       — runs: what is sent, and when it is all
-/
import NetBoard.Proofs.Etherbone.Serving
import NetBoard.Proofs.Header.Stages
import NetBoard.Proofs.Pipe

namespace NetBoard.Etherbone

/-! ## §1. What the queues amount to. -/

/-- The packets seen so far by kind: probes, records, bad magic, malformed. -/
def Endpoint.tally (e : Endpoint) : Nat × Nat × Nat × Nat :=
  (e.stats.probes, e.stats.records, e.stats.badMagic, e.stats.malformed)

/-- The same of the interpreter. -/
def Interpreter.tally (i : Interpreter) : Nat × Nat × Nat × Nat :=
  (i.probes, i.records, i.badMagic, i.malformed)

theorem tally_eq_iff {e : Endpoint} {i : Interpreter} :
    e.tally = i.tally ↔ e.stats.probes = i.probes ∧ e.stats.records = i.records ∧
      e.stats.badMagic = i.badMagic ∧ e.stats.malformed = i.malformed := by
  simp [Endpoint.tally, Interpreter.tally]

namespace Endpoint

/-- The endpoint reads and writes its headers on the bus, and has room for a reply. -/
structure Formed (e : Endpoint) : Prop where
  packetPacketizer : e.packetPacketizer.header = packetHeader ∧ e.packetPacketizer.width = busWidth
  packetDepacketizer :
    e.packetDepacketizer.format = packetHeader ∧ e.packetDepacketizer.width = busWidth
  recordPacketizer : e.recordPacketizer.header = recordHeader ∧ e.recordPacketizer.width = busWidth
  recordDepacketizer :
    e.recordDepacketizer.format = recordHeader ∧ e.recordDepacketizer.width = busWidth
  room : 0 < e.bufferDepth

/-- The reply that carries a record. -/
def recordReply (e : Endpoint) (record : Bytes) : Udp.UserPacket :=
  Interpreter.packetTo e.port e.requester (packetOctets 0 0 ++ record)

/-- The replies there will be when `accesses` have run. -/
def promised (e : Endpoint) (accesses : List Access) : List Udp.UserPacket :=
  e.replies ++ (served e.bus e.results accesses).answers.map e.recordReply

/-- The accesses that are still to be run: those that wait, and those of the words
that are not fed yet. -/
def pending (e : Endpoint) : List Access :=
  e.accesses ++ match e.inbound with
    | none => []
    | some record => e.receiver.walk record.shape record.words

/-- The endpoint `t` with accesses `k` ahead ends as `e` with `l` ahead does. -/
structure Continues (e : Endpoint) (l : List Access) (t : Endpoint) (k : List Access) : Prop where
  formed : t.Formed
  port : t.port = e.port
  requester : t.requester = e.requester
  heldOut : t.heldOut = e.heldOut
  tally : t.tally = e.tally
  bus : (served t.bus t.results k).bus = (served e.bus e.results l).bus
  results : (served t.bus t.results k).results = (served e.bus e.results l).results
  promised : t.promised k = e.promised l

variable {e t u : Endpoint} {k l m : List Access}

theorem Continues.refl (hf : e.Formed) (l : List Access) : Continues e l e l :=
  ⟨hf, rfl, rfl, rfl, rfl, rfl, rfl, rfl⟩

theorem Continues.trans (h₁ : Continues e l t k) (h₂ : Continues t k u m) : Continues e l u m :=
  ⟨h₂.formed, h₂.port.trans h₁.port, h₂.requester.trans h₁.requester,
    h₂.heldOut.trans h₁.heldOut, h₂.tally.trans h₁.tally, h₂.bus.trans h₁.bus,
    h₂.results.trans h₁.results, h₂.promised.trans h₁.promised⟩

/-! ## §2. Replies. -/

theorem busWidth_supported : SupportedWidth busWidth := .inr (.inr (.inl rfl))

/-- A reply is queued for the requester. -/
theorem reply_eq (hf : e.Formed) {nr pr : Nat} (hnr : nr < 2) (hpr : pr < 2) (payload : Bytes) :
    e.reply nr pr payload =
      { e with
        packetPacketizer := { e.packetPacketizer with carry := none }
        replies := e.replies ++
          [Interpreter.packetTo e.port e.requester (packetOctets nr pr ++ payload)] } := by
  obtain ⟨hheader, hwidth⟩ := hf.packetPacketizer
  have hwrites : e.packetPacketizer.Writes packetHeader := ⟨hheader, hwidth ▸ busWidth_supported⟩
  unfold reply
  dsimp only
  rw [hwrites.packetize packetHeader_sound]
  dsimp only
  rw [encode_packetFields hnr hpr]
  rfl

/-- Results are answered by a record of writes to their return address. -/
theorem answer_eq {p : Packetizer} (hheader : p.header = recordHeader) (hwidth : p.width = busWidth)
    (results : List Access) :
    answer p results = ({ p with carry := none }, answerOctets results) := by
  have henable : (results.head?.map fun (a : Access) => a.byteEnable.toNat).getD 0 =
      ((results.head?.map fun (a : Access) => a.byteEnable).getD 0).toNat := by
    cases results.head? with
    | none => rfl
    | some a => rfl
  have hwrites : p.Writes recordHeader := ⟨hheader, hwidth ▸ busWidth_supported⟩
  unfold answer
  dsimp only
  rw [hwrites.packetize recordHeader_sound, henable, encode_recordFields]
  rfl

/-! ## §3. The bus. -/

/-- Running an access leaves words and waiting accesses alone. -/
theorem serveOne_frame (e : Endpoint) (a : Access) :
    (e.serveOne a).receiver = e.receiver ∧ (e.serveOne a).inbound = e.inbound := by
  unfold serveOne
  dsimp only
  split
  · exact ⟨rfl, rfl⟩
  · split
    · exact ⟨rfl, rfl⟩
    · exact ⟨rfl, rfl⟩

/-- Running an access is one step towards the same end. -/
theorem serveOne_continues (hf : e.Formed) (a : Access) (rest : List Access) :
    Continues e (a :: rest) (e.serveOne a) rest := by
  unfold serveOne
  dsimp only
  by_cases hwrite : a.isWrite
  · have hrun : a.run e.bus = (e.bus.write a.word a.data (a.byteEnable &&& 0x0f), none) := by
      unfold Access.run
      simp [hwrite]
    have hserved : served e.bus e.results (a :: rest) =
        served (e.bus.write a.word a.data (a.byteEnable &&& 0x0f)) e.results rest := by
      rw [served, hrun]
    rw [if_pos hwrite, hrun]
    refine ⟨⟨hf.1, hf.2, hf.3, hf.4, hf.5⟩, rfl, rfl, rfl, rfl, ?_, ?_, ?_⟩
    · rw [hserved]
    · rw [hserved]
    · unfold promised
      rw [hserved]
      rfl
  · let result : Access := { a with isWrite := true, data := e.bus.read a.word (a.byteEnable &&& 0x0f) }
    have hrun : a.run e.bus = (e.bus, some result) := by
      unfold Access.run
      simp [hwrite, result]
    have hserved : served e.bus e.results (a :: rest) =
        if result.last then
          { served e.bus [] rest with
            answers := answerOctets (e.results ++ [result]) :: (served e.bus [] rest).answers }
        else served e.bus (e.results ++ [result]) rest := by
      rw [served, hrun]
    rw [if_neg hwrite, hrun]
    dsimp only
    -- the last read of a record turns the results into a reply
    by_cases hlast : result.last
    · rw [if_pos hlast] at hserved ⊢
      rw [answer_eq hf.recordPacketizer.1 hf.recordPacketizer.2]
      dsimp only
      rw [reply_eq ?_ (show 0 < 2 by omega) (show 0 < 2 by omega)]
      · refine ⟨⟨hf.1, hf.2, hf.3, hf.4, hf.5⟩, rfl, rfl, rfl, rfl, ?_, ?_, ?_⟩
        · rw [hserved]
        · rw [hserved]
        · unfold promised
          rw [hserved, List.map_cons]
          exact List.append_assoc ..
      · exact ⟨hf.1, hf.2, hf.3, hf.4, hf.5⟩
    · rw [if_neg hlast] at hserved ⊢
      refine ⟨⟨hf.1, hf.2, hf.3, hf.4, hf.5⟩, rfl, rfl, rfl, rfl, ?_, ?_, ?_⟩
      · rw [hserved]
      · rw [hserved]
      · unfold promised
        rw [hserved]
        rfl

/-- Running accesses leaves the words alone. -/
theorem serveAll_frame (e : Endpoint) (l : List Access) :
    (e.serveAll l).receiver = e.receiver ∧ (e.serveAll l).inbound = e.inbound := by
  induction l generalizing e with
  | nil => exact ⟨rfl, rfl⟩
  | cons a rest ih =>
    obtain ⟨hreceiver, hinbound⟩ := serveOne_frame e a
    unfold serveAll
    by_cases hroom : e.hasReplyRoom
    · rw [if_pos hroom, (ih _).1, (ih _).2]
      exact ⟨hreceiver, hinbound⟩
    · rw [if_neg hroom]
      exact ⟨rfl, rfl⟩

/-- Running waiting accesses, as many as have room, goes towards the same end. -/
theorem serveAll_continues (hf : e.Formed) (l m : List Access) :
    Continues e (l ++ m) (e.serveAll l) ((e.serveAll l).accesses ++ m) := by
  -- `m` stays as it is: it stands for the accesses of words not fed yet
  induction l generalizing e with
  | nil =>
    refine ⟨⟨hf.1, hf.2, hf.3, hf.4, hf.5⟩, rfl, rfl, rfl, rfl, rfl, rfl, rfl⟩
  | cons a rest ih =>
    unfold serveAll
    by_cases hroom : e.hasReplyRoom
    · rw [if_pos hroom, List.cons_append]
      have hone := serveOne_continues hf a (rest ++ m)
      exact hone.trans (ih hone.formed)
    · rw [if_neg hroom]
      exact ⟨⟨hf.1, hf.2, hf.3, hf.4, hf.5⟩, rfl, rfl, rfl, rfl, rfl, rfl, rfl⟩

theorem serve_continues (hf : e.Formed) :
    Continues e e.pending e.serve.state e.serve.state.pending := by
  obtain ⟨hreceiver, hinbound⟩ := serveAll_frame e e.accesses
  have hserved := serveAll_continues hf e.accesses (match e.inbound with
    | none => []
    | some record => e.receiver.walk record.shape record.words)
  unfold serve pending
  dsimp only
  rw [hreceiver, hinbound]
  exact hserved

/-! ## §4. The receiver. -/

/-- Feeding words makes accesses of them. -/
theorem feedAll_continues (hf : e.Formed) (shape : Shape) (words : List UInt32) :
    Continues e (e.accesses ++ e.receiver.walk shape words) (e.feedAll shape words).state
      (e.feedAll shape words).state.pending := by
  induction words generalizing e with
  | nil =>
    exact ⟨⟨hf.1, hf.2, hf.3, hf.4, hf.5⟩, rfl, rfl, rfl, rfl, rfl, rfl, rfl⟩
  | cons word words ih =>
    unfold feedAll
    by_cases hroom : e.accesses.length < e.bufferDepth
    · rw [if_pos hroom]
      have hfed : (e.feedOne shape word).1.Formed := ⟨hf.1, hf.2, hf.3, hf.4, hf.5⟩
      have hrest := ih hfed
      show Continues e _ ((e.feedOne shape word).1.feedAll shape words).state _
      -- the word moves from the words to be fed to the accesses that wait
      have hwords : e.accesses ++ e.receiver.walk shape (word :: words) =
          (e.feedOne shape word).1.accesses ++ (e.feedOne shape word).1.receiver.walk shape words := by
        rw [Receiver.walk, ← List.append_assoc]
        rfl
      rw [hwords]
      exact ⟨hrest.1, hrest.2, hrest.3, hrest.4, hrest.5, hrest.6, hrest.7, hrest.8⟩
    · rw [if_neg hroom]
      exact ⟨⟨hf.1, hf.2, hf.3, hf.4, hf.5⟩, rfl, rfl, rfl, rfl, rfl, rfl, rfl⟩

theorem feed_continues (hf : e.Formed) :
    Continues e e.pending e.feed.state e.feed.state.pending := by
  unfold feed
  cases hinbound : e.inbound with
  | none => exact Continues.refl hf _
  | some record =>
    have hwords : e.pending = e.accesses ++ e.receiver.walk record.shape record.words := by
      unfold pending
      rw [hinbound]
    rw [hwords]
    exact feedAll_continues hf record.shape record.words

/-! ## §5. Packets. -/

/-- Run to its end, the endpoint has done what the interpreter has; `gone` are
the replies that have left its queue. -/
structure Tracks (e : Endpoint) (i : Interpreter) (gone : List Udp.UserPacket) : Prop where
  formed : e.Formed
  tally : e.tally = i.tally
  bus : (served e.bus e.results e.pending).bus = i.bus
  results : (served e.bus e.results e.pending).results = []
  replies : gone ++ e.promised e.pending = i.replies

variable {i : Interpreter} {gone : List Udp.UserPacket}

/-- Inner work keeps the endpoint on its track. -/
theorem Tracks.of_continues (ht : e.Tracks i gone) (hc : Continues e e.pending t t.pending) :
    t.Tracks i gone := by
  refine ⟨hc.formed, hc.tally.trans ht.tally, hc.bus.trans ht.bus, hc.results.trans ht.results, ?_⟩
  rw [hc.promised]
  exact ht.replies

/-- An endpoint without work ahead. -/
structure AtRest (e : Endpoint) : Prop where
  inbound : e.inbound = none
  accesses : e.accesses = []

theorem AtRest.pending (h : e.AtRest) : e.pending = [] := by
  unfold Endpoint.pending
  rw [h.inbound, h.accesses]
  rfl

theorem AtRest.promised (h : e.AtRest) : e.promised e.pending = e.replies := by
  rw [h.pending]
  exact List.append_nil _

theorem atRest_of_isReady (hready : e.isReady = true) : e.AtRest := by
  unfold isReady at hready
  simp only [Bool.and_eq_true, Option.isNone_iff_eq_none, List.isEmpty_iff] at hready
  exact ⟨hready.1.1, hready.1.2⟩

/-- At rest, an endpoint is on its track if it is where the interpreter is. -/
theorem tracks_of_atRest (hinbound : e.inbound = none) (haccesses : e.accesses = [])
    (hf : e.Formed) (htally : e.tally = i.tally) (hbus : e.bus = i.bus) (hresults : e.results = [])
    (hreplies : gone ++ e.replies = i.replies) : e.Tracks i gone := by
  have hrest : e.AtRest := ⟨hinbound, haccesses⟩
  refine ⟨hf, htally, ?_, ?_, ?_⟩
  · rw [hrest.pending]
    exact hbus
  · rw [hrest.pending]
    exact hresults
  · rw [hrest.promised]
    exact hreplies

/-- At rest, an endpoint on its track is where the interpreter is. -/
theorem Tracks.of_atRest (ht : e.Tracks i gone) (hrest : e.AtRest) :
    e.bus = i.bus ∧ e.results = [] ∧ gone ++ e.replies = i.replies := by
  obtain ⟨-, -, hbus, hresults, hreplies⟩ := ht
  rw [hrest.promised] at hreplies
  rw [hrest.pending] at hbus hresults
  exact ⟨hbus, hresults, hreplies⟩

/-- A stage of the bus cuts octets behind its header, and stays what it is. -/
theorem depacketize_bus {d : Depacketizer} {h : Header} (hformat : d.format = h)
    (hwidth : d.width = busWidth) (hpos : 0 < h.length) (bs : Bytes) :
    ((d.depacketize bs).1.format = h ∧ (d.depacketize bs).1.width = busWidth) ∧
      (d.depacketize bs).2 =
        if bs.length < h.length then none
        else some (h.decode (bs.take h.length), bs.drop h.length) := by
  subst hformat
  have hfits : FitsWord d.width := by
    rw [hwidth]
    exact busWidth_supported.fits
  obtain ⟨hformat', hwidth'⟩ := Depacketizer.depacketize_format d hfits hpos bs
  exact ⟨⟨hformat', hwidth'.trans hwidth⟩, Depacketizer.depacketize_eq d hfits hpos bs⟩

/-- Reading a record gives the record that is the whole of the payload. -/
theorem readRecord_eq (hf : e.Formed) (payload : Bytes) :
    ∃ recordDepacketizer,
      (recordDepacketizer.format = recordHeader ∧ recordDepacketizer.width = busWidth) ∧
      e.readRecord payload =
        ({ e with recordDepacketizer },
          (record? payload).map fun (shape, words) => ⟨shape, words⟩) := by
  obtain ⟨hformat, hwidth⟩ := hf.recordDepacketizer
  obtain ⟨hnext, hread⟩ := depacketize_bus hformat hwidth (by decide) payload
  refine ⟨(e.recordDepacketizer.depacketize payload).1, hnext, ?_⟩
  unfold readRecord
  dsimp only
  rw [hread]
  congr 1
  -- four octets of header, and a shape that fits what follows
  show Option.bind (if payload.length < 4 then none
    else some (recordHeader.decode (payload.take 4), payload.drop 4)) _ = _
  match payload with
  | [] => rfl
  | [_] => rfl
  | [_, _] => rfl
  | [_, _, _] => rfl
  | flags :: byteEnable :: writes :: reads :: data =>
    rw [if_neg (by simp)]
    let octets : Bytes := [flags, byteEnable, writes, reads]
    show (if data.length = 4 * (Shape.ofFields (recordHeader.decode octets)).words then
      some (Inbound.mk (Shape.ofFields (recordHeader.decode octets)) (octetWords data)) else none) = _
    rw [decode_record]
    unfold record?
    dsimp only
    split
    · rfl
    · rfl

/-- The words of a record are as many as its shape says. -/
theorem length_of_record? {payload : Bytes} {shape : Shape} {words : List UInt32}
    (h : record? payload = some (shape, words)) : words.length = shape.words := by
  unfold record? at h
  split at h
  · dsimp only at h
    split at h
    · next hlen =>
      obtain ⟨rfl, rfl⟩ := Prod.mk.inj (Option.some.inj h)
      unfold octetWords
      rw [List.length_map]
      exact Bytes.length_words (by decide) (by rw [hlen, Nat.mul_comm])
    · cases h
  · cases h

/-- A probe is answered as the interpreter does. -/
theorem probe_tracks (hrest : e.AtRest) (ht : e.Tracks i gone) {values : Fields} {flags : UInt8}
    (hpf : values.get "pf" = 1) (hnr : values.get "nr" = flags.toNat / 4 % 2) (payload : Bytes) :
    (e.handle values payload).state.Tracks (i.answerProbe e.port e.requester flags payload) gone := by
  have hf := ht.formed
  obtain ⟨hbus, hresults, hreplies⟩ := ht.of_atRest hrest
  obtain ⟨hprobes, hrecords, hmagic, hmalformed⟩ := tally_eq_iff.mp ht.tally
  have hlt : flags.toNat / 4 % 2 < 2 := Nat.mod_lt _ (by decide)
  let counted : Endpoint := { e with stats := { e.stats with probes := e.stats.probes + 1 } }
  have hcounted : counted.Formed := ⟨hf.1, hf.2, hf.3, hf.4, hf.5⟩
  have hstate : (e.handle values payload).state =
      counted.reply (flags.toNat / 4 % 2) 1 payload := by
    unfold handle
    rw [if_pos hpf, hnr]
    rfl
  rw [hstate, reply_eq hcounted hlt (by omega)]
  refine tracks_of_atRest hrest.inbound hrest.accesses ?_ ?_ hbus hresults ?_
  · exact ⟨hf.1, hf.2, hf.3, hf.4, hf.5⟩
  · exact tally_eq_iff.mpr ⟨congrArg (· + 1) hprobes, hrecords, hmagic, hmalformed⟩
  · show gone ++ (e.replies ++ [_]) = i.replies ++ [_]
    rw [← List.append_assoc, hreplies]

/-- Any other payload is run as the interpreter does. -/
theorem record_tracks (hrest : e.AtRest) (ht : e.Tracks i gone) {values : Fields}
    (hpf : values.get "pf" ≠ 1) (payload : Bytes) :
    (e.handle values payload).state.Tracks (i.runRecord e.port e.requester payload) gone := by
  have hf := ht.formed
  obtain ⟨hbus, hresults, hreplies⟩ := ht.of_atRest hrest
  obtain ⟨hprobes, hrecords, hmagic, hmalformed⟩ := tally_eq_iff.mp ht.tally
  obtain ⟨recordDepacketizer, hdepacketizer, hread⟩ := readRecord_eq hf payload
  cases hrecord : record? payload with
  | none =>
    -- the packet is dropped, and the bus is not touched
    let dropped : Endpoint :=
      { e with recordDepacketizer, stats := { e.stats with malformed := e.stats.malformed + 1 } }
    have hstate : (e.handle values payload).state = dropped := by
      unfold handle
      rw [if_neg hpf, hread, hrecord]
      rfl
    have hrun : i.runRecord e.port e.requester payload = { i with malformed := i.malformed + 1 } := by
      unfold Interpreter.runRecord
      rw [hrecord]
    rw [hstate, hrun]
    refine tracks_of_atRest hrest.inbound hrest.accesses ?_ ?_ hbus hresults hreplies
    · exact ⟨hf.1, hf.2, hf.3, hdepacketizer, hf.5⟩
    · exact tally_eq_iff.mpr ⟨hprobes, hrecords, hmagic, congrArg (· + 1) hmalformed⟩
  | some record =>
    obtain ⟨shape, words⟩ := record
    have hserved := served_record shape e.bus (length_of_record? hrecord)
    let taken : Endpoint :=
      { e with
        recordDepacketizer
        stats := { e.stats with records := e.stats.records + 1 }
        receiver := .idle
        inbound := some ⟨shape, words⟩ }
    have hstate : (e.handle values payload).state = taken := by
      unfold handle
      rw [if_neg hpf, hread, hrecord]
      rfl
    have hpending : taken.pending = Receiver.walk shape .idle words := by
      show e.accesses ++ _ = _
      rw [hrest.accesses]
      rfl
    have hrun : i.runRecord e.port e.requester payload =
        { i with
          bus := (execute i.bus shape words).1
          records := i.records + 1
          replies :=
            i.replies ++ (answersOf shape (execute i.bus shape words).2).map e.recordReply } := by
      unfold Interpreter.runRecord
      rw [hrecord]
      rfl
    have hends : served taken.bus taken.results taken.pending =
        ⟨(execute i.bus shape words).1, [], answersOf shape (execute i.bus shape words).2⟩ := by
      rw [hpending, ← hbus]
      show served e.bus e.results _ = _
      rw [hresults]
      exact hserved
    rw [hstate, hrun]
    refine ⟨⟨hf.1, hf.2, hf.3, hdepacketizer, hf.5⟩, ?_, ?_, ?_, ?_⟩
    · exact tally_eq_iff.mpr ⟨hprobes, congrArg (· + 1) hrecords, hmagic, hmalformed⟩
    · rw [hends]
    · rw [hends]
    · unfold promised
      rw [hends]
      show gone ++ (e.replies ++ _) = i.replies ++ _
      rw [← List.append_assoc, hreplies]
      rfl

/-- A packet counts as malformed. -/
def countMalformed (e : Endpoint) : Endpoint :=
  { e with stats := { e.stats with malformed := e.stats.malformed + 1 } }

/-- A packet counts as one with a bad magic number. -/
def countBadMagic (e : Endpoint) : Endpoint :=
  { e with stats := { e.stats with badMagic := e.stats.badMagic + 1 } }

/-- What becomes of a packet, by its first octets. -/
theorem accept_eq (hf : e.Formed) (packet : Udp.UserPacket) :
    ∃ packetDepacketizer,
      (packetDepacketizer.format = packetHeader ∧ packetDepacketizer.width = busWidth) ∧
      ((packet.bytes busWidth).length < 8 →
        (e.accept packet).state = ({ e with packetDepacketizer } : Endpoint).countMalformed) ∧
      ∀ m₁ m₀ flags size a b c d payload,
        packet.bytes busWidth = m₁ :: m₀ :: flags :: size :: a :: b :: c :: d :: payload →
        (e.accept packet).state =
          if ¬ (m₁ = 0x4e ∧ m₀ = 0x6f) then
            ({ e with packetDepacketizer } : Endpoint).countBadMagic
          else (({ e with packetDepacketizer, requester := packet.ip } : Endpoint).handle
            (packetHeader.decode [m₁, m₀, flags, size, a, b, c, d]) payload).state := by
  obtain ⟨hformat, hwidth⟩ := hf.packetDepacketizer
  obtain ⟨hnext, hread⟩ := depacketize_bus hformat hwidth (by decide) (packet.bytes busWidth)
  refine ⟨(e.packetDepacketizer.depacketize (packet.bytes busWidth)).1, hnext, ?_, ?_⟩
  · intro hshort
    unfold accept
    dsimp only
    rw [hread, if_pos (show _ < packetHeader.length from hshort)]
    rfl
  · intro m₁ m₀ flags size a b c d payload hbytes
    obtain ⟨hget, -, -⟩ := decode_packet m₁ m₀ flags size a b c d
    have hiff : (packetHeader.decode [m₁, m₀, flags, size, a, b, c, d]).get "magic" = magic ↔
        m₁ = 0x4e ∧ m₀ = 0x6f := by
      have h₁ := m₁.toNat_lt
      have h₀ := m₀.toNat_lt
      rw [hget, ← UInt8.toNat_inj, ← UInt8.toNat_inj]
      show _ = 0x4e6f ↔ _ = 0x4e ∧ _ = 0x6f
      omega
    have hlong : ¬ (packet.bytes busWidth).length < packetHeader.length := by
      rw [hbytes]
      show ¬ payload.length + 8 < 8
      omega
    unfold accept
    dsimp only
    rw [hread, if_neg hlong, hbytes]
    by_cases hmatch : m₁ = 0x4e ∧ m₀ = 0x6f
    · rw [if_neg (not_not_intro hmatch)]
      exact congrArg Outcome.state (if_pos (hiff.mpr hmatch))
    · rw [if_pos hmatch]
      exact congrArg Outcome.state (if_neg (fun h => hmatch (hiff.mp h)))

/-- A packet that is taken leaves the endpoint where it leaves the interpreter. -/
theorem accept_tracks (hrest : e.AtRest) (ht : e.Tracks i gone) (packet : Udp.UserPacket) :
    (e.accept packet).state.Tracks (i.handle e.port packet) gone := by
  have hf := ht.formed
  obtain ⟨hbus, hresults, hreplies⟩ := ht.of_atRest hrest
  obtain ⟨hprobes, hrecords, hmagic, hmalformed⟩ := tally_eq_iff.mp ht.tally
  obtain ⟨packetDepacketizer, hdepacketizer, hshort, hlong⟩ := accept_eq hf packet
  by_cases hlen : (packet.bytes busWidth).length < 8
  · rw [hshort hlen, i.handle_of_short e.port hlen]
    refine tracks_of_atRest hrest.inbound hrest.accesses ?_ ?_ hbus hresults hreplies
    · exact ⟨hf.1, hdepacketizer, hf.3, hf.4, hf.5⟩
    · exact tally_eq_iff.mpr ⟨hprobes, hrecords, hmagic, congrArg (· + 1) hmalformed⟩
  · obtain ⟨m₁, m₀, flags, size, a, b, c, d, payload, hbytes⟩ :=
      Bytes.exists_octets (Nat.le_of_not_lt hlen)
    rw [hlong _ _ _ _ _ _ _ _ _ hbytes, i.handle_of_octets e.port hbytes]
    by_cases hmatch : m₁ = 0x4e ∧ m₀ = 0x6f
    · let asked : Endpoint := { e with packetDepacketizer, requester := packet.ip }
      have hrest' : asked.AtRest := ⟨hrest.inbound, hrest.accesses⟩
      have hasked : asked.Tracks i gone :=
        tracks_of_atRest hrest.inbound hrest.accesses ⟨hf.1, hdepacketizer, hf.3, hf.4, hf.5⟩
          ht.tally hbus hresults hreplies
      obtain ⟨-, hpf, hnr⟩ := decode_packet m₁ m₀ flags size a b c d
      rw [if_neg (not_not_intro hmatch), if_neg (not_not_intro hmatch)]
      by_cases hprobe : flags.toNat % 2 = 1
      · rw [if_pos hprobe]
        exact probe_tracks hrest' hasked (hpf.trans hprobe) hnr payload
      · rw [if_neg hprobe]
        exact record_tracks hrest' hasked (by rwa [hpf]) payload
    · rw [if_pos hmatch, if_pos hmatch]
      refine tracks_of_atRest hrest.inbound hrest.accesses ?_ ?_ hbus hresults hreplies
      · exact ⟨hf.1, hdepacketizer, hf.3, hf.4, hf.5⟩
      · exact tally_eq_iff.mpr ⟨hprobes, hrecords, congrArg (· + 1) hmagic, hmalformed⟩

/-- Handling a packet leaves the port and the hold alone. -/
theorem handle_frame (e : Endpoint) (values : Fields) (payload : Bytes) :
    (e.handle values payload).state.port = e.port ∧
      (e.handle values payload).state.heldOut = e.heldOut := by
  have hread : (e.readRecord payload).1.port = e.port ∧
      (e.readRecord payload).1.heldOut = e.heldOut := ⟨rfl, rfl⟩
  unfold handle
  split
  · exact ⟨rfl, rfl⟩
  · split
    · next heq =>
      rw [heq] at hread
      exact hread
    · next heq =>
      rw [heq] at hread
      exact hread

theorem accept_frame (hf : e.Formed) (packet : Udp.UserPacket) :
    (e.accept packet).state.port = e.port ∧ (e.accept packet).state.heldOut = e.heldOut := by
  obtain ⟨packetDepacketizer, -, hshort, hlong⟩ := accept_eq hf packet
  by_cases hlen : (packet.bytes busWidth).length < 8
  · rw [hshort hlen]
    exact ⟨rfl, rfl⟩
  · obtain ⟨m₁, m₀, flags, size, a, b, c, d, payload, hbytes⟩ :=
      Bytes.exists_octets (Nat.le_of_not_lt hlen)
    rw [hlong _ _ _ _ _ _ _ _ _ hbytes]
    split
    · exact ⟨rfl, rfl⟩
    · exact handle_frame ..

/-- Replies that leave the queue are still on their way. -/
theorem Tracks.of_sent (ht : e.Tracks i gone) {replies gone' : List Udp.UserPacket}
    {heldOut : Option Udp.UserPacket} {stats : Stats}
    (hstats : ({ e with stats } : Endpoint).tally = e.tally)
    (hsent : gone' ++ replies = gone ++ e.replies) :
    ({ e with replies, heldOut, stats } : Endpoint).Tracks i gone' := by
  obtain ⟨hf, htally, hbus, hresults, hreplies⟩ := ht
  refine ⟨⟨hf.1, hf.2, hf.3, hf.4, hf.5⟩, hstats.trans htally, hbus, hresults, ?_⟩
  show gone' ++ (replies ++ _) = _
  rw [← hreplies, ← List.append_assoc, hsent, List.append_assoc]
  rfl

end Endpoint

namespace Station

/-! ## §6. One step. -/

/-- The replies that have left the queue: in the pipe, or held. -/
def underway (s : Station) : List Udp.UserPacket :=
  s.link.outbound.items ++ s.endpoint.heldOut.toList

/-- The station has done what the interpreter has, `received` being the replies
that have left the pipe, and somebody takes them. -/
structure Tracks (s : Station) (i : Interpreter) (port : UInt16) (received : List Udp.UserPacket) :
    Prop where
  endpoint : s.endpoint.Tracks i (received ++ s.underway)
  port : s.endpoint.port = port
  listener : s.link.outbound.closed = false

variable {s : Station} {i : Interpreter} {port : UInt16} {received : List Udp.UserPacket}

theorem transmitNext_tracks (ht : s.Tracks i port received) (hheld : s.endpoint.heldOut = none) :
    s.transmitNext.state.Tracks i port received := by
  unfold transmitNext
  cases hreplies : s.endpoint.replies with
  | nil => exact ht
  | cons packet replies =>
    obtain ⟨hitems, hopen⟩ := sendOrHold_items ht.listener packet
    have hmoved : received ++ ((sendOrHold packet s.link.outbound).2.items ++
        (sendOrHold packet s.link.outbound).1.toList) ++ replies =
        received ++ s.underway ++ s.endpoint.replies := by
      unfold underway
      rw [hitems, hheld, hreplies]
      simp
    exact ⟨ht.endpoint.of_sent rfl hmoved, ht.port, hopen⟩

theorem transmit_tracks (ht : s.Tracks i port received) :
    s.transmit.state.Tracks i port received := by
  unfold transmit
  cases hheld : s.endpoint.heldOut with
  | none => exact transmitNext_tracks ht hheld
  | some packet =>
    dsimp only
    rw [flush_of_open ht.listener]
    by_cases hroom : s.link.outbound.hasRoom
    · rw [if_pos hroom]
      have hmoved : received ++ ((s.link.outbound.items ++ [packet]) ++ []) ++ s.endpoint.replies =
          received ++ s.underway ++ s.endpoint.replies := by
        unfold underway
        rw [hheld]
        simp
      refine transmitNext_tracks ⟨?_, ht.port, ht.listener⟩ rfl
      exact ht.endpoint.of_sent rfl hmoved
    · rw [if_neg hroom]
      exact ht

theorem serve_tracks (ht : s.Tracks i port received) :
    (s.inside Endpoint.serve).state.Tracks i port received := by
  have hc := Endpoint.serve_continues ht.endpoint.formed
  refine ⟨?_, hc.port.trans ht.port, ht.listener⟩
  show s.endpoint.serve.state.Tracks i (received ++ (s.link.outbound.items ++
    s.endpoint.serve.state.heldOut.toList))
  rw [hc.heldOut]
  exact ht.endpoint.of_continues hc

theorem feed_tracks (ht : s.Tracks i port received) :
    (s.inside Endpoint.feed).state.Tracks i port received := by
  have hc := Endpoint.feed_continues ht.endpoint.formed
  refine ⟨?_, hc.port.trans ht.port, ht.listener⟩
  show s.endpoint.feed.state.Tracks i (received ++ (s.link.outbound.items ++
    s.endpoint.feed.state.heldOut.toList))
  rw [hc.heldOut]
  exact ht.endpoint.of_continues hc

/-- The packets that wait are the interpreter's next ones. -/
theorem receive_tracks (ht : s.Tracks i port received) :
    ∃ packets, s.link.inbound.items = packets ++ s.receive.state.link.inbound.items ∧
      s.receive.state.Tracks (i.run port packets) port received := by
  unfold receive
  by_cases hready : s.endpoint.isReady
  · rw [if_pos hready]
    cases htake : s.link.inbound.take with
    | none => exact ⟨[], rfl, ht⟩
    | some next =>
      obtain ⟨packet, inbound⟩ := next
      have hrest := Endpoint.atRest_of_isReady hready
      have haccept := Endpoint.accept_tracks hrest ht.endpoint packet
      obtain ⟨hport, hheld⟩ := Endpoint.accept_frame ht.endpoint.formed packet
      refine ⟨[packet], (Pipe.take_eq_some htake).1, ?_, hport.trans ht.port, ht.listener⟩
      show (s.endpoint.accept packet).state.Tracks (i.handle port packet) (received ++
        (s.link.outbound.items ++ (s.endpoint.accept packet).state.heldOut.toList))
      rw [hheld, ← ht.port]
      exact haccept
  · rw [if_neg hready]
    exact ⟨[], rfl, ht⟩

/-- Before a packet is taken, a step leaves the packets that wait alone. -/
theorem transmit_inbound (s : Station) : s.transmit.state.link.inbound = s.link.inbound := by
  have hnext : ∀ s : Station, s.transmitNext.state.link.inbound = s.link.inbound := by
    intro s
    unfold transmitNext
    split
    · rfl
    · rfl
  unfold transmit
  split
  · exact hnext s
  · split
    · rfl
    · exact hnext _

/-- One step runs the packets it takes as the interpreter does. -/
theorem step_tracks (ht : s.Tracks i port received) :
    ∃ packets, s.link.inbound.items = packets ++ s.step.state.link.inbound.items ∧
      s.step.state.Tracks (i.run port packets) port received := by
  have hsent := transmit_tracks ht
  have hserved := serve_tracks hsent
  obtain ⟨packets, hinbound, htracks⟩ := receive_tracks (feed_tracks hserved)
  refine ⟨packets, ?_, htracks⟩
  rw [← transmit_inbound s]
  exact hinbound

/-! ## §7. When nothing moves. -/

/-- Nothing is on its way through the endpoint, and no packet waits. -/
structure Drained (s : Station) : Prop where
  endpoint : s.endpoint.AtRest
  replies : s.endpoint.replies = []
  heldOut : s.endpoint.heldOut = none
  inbound : s.link.inbound.items = []

theorem transmit_stuck (hlistener : s.link.outbound.closed = false)
    (hroom : s.link.outbound.hasRoom = true) (hstuck : s.transmit.progress = false) :
    s.transmit.state = s ∧ s.endpoint.heldOut = none ∧ s.endpoint.replies = [] := by
  unfold transmit at hstuck ⊢
  cases hheld : s.endpoint.heldOut with
  | none =>
    rw [hheld] at hstuck
    unfold transmitNext at hstuck ⊢
    cases hreplies : s.endpoint.replies with
    | nil => exact ⟨rfl, rfl, rfl⟩
    | cons packet replies =>
      rw [hreplies] at hstuck
      cases hstuck
  | some packet =>
    rw [hheld] at hstuck
    dsimp only at hstuck
    rw [flush_of_open hlistener, if_pos hroom] at hstuck
    cases hstuck

theorem serve_stuck {e : Endpoint} (hroom : 0 < e.bufferDepth) (hreplies : e.replies = [])
    (hstuck : e.serve.progress = false) : e.accesses = [] ∧ e.serve.state = e := by
  have hreply : e.hasReplyRoom = true := by
    unfold Endpoint.hasReplyRoom
    rw [hreplies, decide_eq_true_iff]
    exact hroom
  have haccesses : e.accesses = [] := by
    have hboth : (e.hasReplyRoom && !e.accesses.isEmpty) = false := hstuck
    rw [hreply, Bool.true_and, Bool.not_eq_false', List.isEmpty_iff] at hboth
    exact hboth
  refine ⟨haccesses, ?_⟩
  show e.serveAll e.accesses = e
  rw [haccesses]
  show { e with accesses := [] } = e
  rw [← haccesses]

theorem feed_stuck {e : Endpoint} (hroom : 0 < e.bufferDepth) (haccesses : e.accesses = [])
    (hstuck : e.feed.progress = false) : e.feed.state = { e with inbound := none } := by
  unfold Endpoint.feed at hstuck ⊢
  cases hinbound : e.inbound with
  | none =>
    show e = { e with inbound := none }
    rw [← hinbound]
  | some record =>
    rw [hinbound] at hstuck
    dsimp only at hstuck ⊢
    unfold Endpoint.feedAll at hstuck ⊢
    cases hwords : record.words with
    | nil => rfl
    | cons word words =>
      rw [hwords] at hstuck
      dsimp only at hstuck
      rw [if_pos (by rw [haccesses]; exact hroom)] at hstuck
      cases hstuck

theorem accept_progress (e : Endpoint) (packet : Udp.UserPacket) :
    (e.accept packet).progress = true := by
  unfold Endpoint.accept
  dsimp only
  split
  · rfl
  · split
    · unfold Endpoint.handle
      split
      · rfl
      · split
        · rfl
        · rfl
    · rfl

theorem receive_stuck (hready : s.endpoint.isReady = true) (hstuck : s.receive.progress = false) :
    s.link.inbound.items = [] ∧ s.receive.state = s := by
  unfold receive at hstuck ⊢
  rw [if_pos hready] at hstuck ⊢
  cases htake : s.link.inbound.take with
  | none => exact ⟨Pipe.take_eq_none_iff.mp htake, rfl⟩
  | some next =>
    obtain ⟨packet, inbound⟩ := next
    rw [htake] at hstuck
    have hprogress := accept_progress s.endpoint packet
    dsimp only at hstuck
    rw [Outcome.progress_map, hprogress] at hstuck
    cases hstuck

/-- A step without progress, while replies have room to leave, finds and leaves
nothing to do. -/
theorem drained_of_stuck (hroom : s.link.outbound.hasRoom = true)
    (hlistener : s.link.outbound.closed = false) (hdepth : 0 < s.endpoint.bufferDepth)
    (hstuck : s.step.progress = false) : s.step.state.Drained := by
  unfold step at hstuck ⊢
  simp only [Outcome.progress_andThen, Outcome.state_andThen, Bool.or_eq_false_iff] at hstuck ⊢
  obtain ⟨⟨⟨htransmit, hserve⟩, hfeed⟩, hreceive⟩ := hstuck
  -- from the replies back to the packets, each part is idle because the one
  -- behind it has room
  obtain ⟨hsent, hheld, hreplies⟩ := transmit_stuck hlistener hroom htransmit
  rw [hsent] at hserve hfeed hreceive ⊢
  obtain ⟨haccesses, hserved⟩ := serve_stuck hdepth hreplies hserve
  have hsame : (s.inside Endpoint.serve).state = s := by
    show { s with endpoint := s.endpoint.serve.state } = s
    rw [hserved]
  rw [hsame] at hfeed hreceive ⊢
  have hfed := feed_stuck hdepth haccesses hfeed
  let rested : Station := { s with endpoint := { s.endpoint with inbound := none } }
  have hrested : (s.inside Endpoint.feed).state = rested := by
    show { s with endpoint := s.endpoint.feed.state } = _
    rw [hfed]
  rw [hrested] at hreceive ⊢
  have hready : rested.endpoint.isReady = true := by
    show (true && s.endpoint.accesses.isEmpty && decide (s.endpoint.replies.length < _)) = true
    rw [haccesses, hreplies]
    simpa using hdepth
  obtain ⟨hinbound, hreceived⟩ := receive_stuck hready hreceive
  rw [hreceived]
  exact ⟨⟨rfl, haccesses⟩, hreplies, hheld, hinbound⟩

end Station

/-! ## §8. Runs. -/

/-- What can happen to an endpoint. -/
inductive Event where
  /-- A packet arrives; it is refused if the pipe has no room. -/
  | packet (packet : Udp.UserPacket)
  /-- A reply is taken from the pipe. -/
  | replyTaken
  | step
  deriving Repr, DecidableEq

/-- An endpoint, with the packets that reached it and the replies that were taken. -/
structure History where
  station : Station
  /-- The oldest first. -/
  arrived : List Udp.UserPacket := []
  /-- The oldest first. -/
  received : List Udp.UserPacket := []

namespace History

/-- What one event does. -/
def next (h : History) (event : Event) : History :=
  let s := h.station
  match event with
  | .packet packet =>
    match s.link.inbound.offer packet with
    | (.sent, inbound) =>
      { h with station := { s with link := { s.link with inbound } }
               arrived := h.arrived ++ [packet] }
    | _ => h
  | .replyTaken =>
    match s.link.outbound.take with
    | none => h
    | some (reply, outbound) =>
      { h with station := { s with link := { s.link with outbound } }
               received := h.received ++ [reply] }
  | .step => { h with station := s.step.state }

/-- A run from a station. -/
def run (s : Station) (events : List Event) : History := events.foldl next { station := s }

/-- The replies that left the endpoint: those taken and those in the pipe. -/
def sent (h : History) : List Udp.UserPacket := h.received ++ h.station.link.outbound.items

/-- Of the packets that arrived the first ones are run, and the others wait. -/
structure Balanced (h : History) (i : Interpreter) (port : UInt16) (taken : List Udp.UserPacket) :
    Prop where
  arrived : h.arrived = taken ++ h.station.link.inbound.items
  station : h.station.Tracks (i.run port taken) port h.received

theorem next_balanced {h : History} {i : Interpreter} {port : UInt16} {taken : List Udp.UserPacket}
    (hb : h.Balanced i port taken) (event : Event) :
    ∃ taken, (h.next event).Balanced i port taken := by
  obtain ⟨harrived, ht⟩ := hb
  cases event with
  | packet packet =>
    refine ⟨taken, ?_⟩
    unfold next
    dsimp only
    split
    · next inbound hoffer =>
      refine ⟨?_, ⟨ht.endpoint, ht.port, ht.listener⟩⟩
      show h.arrived ++ [packet] = taken ++ inbound.items
      rw [(Pipe.offer_sent hoffer).1, harrived, List.append_assoc]
    · exact ⟨harrived, ht⟩
  | replyTaken =>
    refine ⟨taken, ?_⟩
    unfold next
    dsimp only
    split
    · exact ⟨harrived, ht⟩
    · next reply outbound htake =>
      obtain ⟨hitems, -, hclosed⟩ := Pipe.take_eq_some htake
      refine ⟨harrived, ⟨?_, ht.port, hclosed.trans ht.listener⟩⟩
      -- the reply leaves the pipe and is received: what is gone stays the same
      have hgone : h.received ++ h.station.underway =
          (h.received ++ [reply]) ++ (outbound.items ++ h.station.endpoint.heldOut.toList) := by
        unfold Station.underway
        rw [hitems]
        simp
      have hendpoint := ht.endpoint
      rw [hgone] at hendpoint
      exact hendpoint
  | step =>
    obtain ⟨packets, hinbound, htracks⟩ := Station.step_tracks ht
    refine ⟨taken ++ packets, ?_, ?_⟩
    · show h.arrived = taken ++ packets ++ h.station.step.state.link.inbound.items
      rw [harrived, hinbound, List.append_assoc]
    · rw [Interpreter.run_append]
      exact htracks

/-- An endpoint that nothing has happened to. -/
structure Fresh (s : Station) : Prop where
  endpoint : s.endpoint.Formed
  rest : s.endpoint.AtRest
  results : s.endpoint.results = []
  replies : s.endpoint.replies = []
  heldOut : s.endpoint.heldOut = none
  tally : s.endpoint.tally = (0, 0, 0, 0)
  inbound : s.link.inbound.items = []
  outbound : s.link.outbound.items = []
  listener : s.link.outbound.closed = false

/-- So an endpoint is made, whatever its memory and its depth. -/
theorem fresh_make {port : UInt16} {width : Nat} {bus : Sram} {bufferDepth : Nat} {e : Endpoint}
    (h : Endpoint.make? port width bus bufferDepth = .ok e) (depth : Nat) :
    Fresh ⟨e, Link.make depth⟩ := by
  unfold Endpoint.make? at h
  split at h
  · cases h
    exact ⟨⟨⟨rfl, rfl⟩, ⟨rfl, rfl⟩, ⟨rfl, rfl⟩, ⟨rfl, rfl⟩, Nat.le_max_right ..⟩, ⟨rfl, rfl⟩,
      rfl, rfl, rfl, rfl, rfl, rfl, rfl⟩
  · cases h

theorem run_balanced {s : Station} (hs : Fresh s) (events : List Event) :
    ∃ taken, (run s events).Balanced { bus := s.endpoint.bus } s.endpoint.port taken := by
  have hfresh : ({ station := s } : History).Balanced { bus := s.endpoint.bus } s.endpoint.port [] := by
    refine ⟨?_, ?_, rfl, hs.listener⟩
    · rw [hs.inbound]
      rfl
    · refine Endpoint.tracks_of_atRest hs.rest.inbound hs.rest.accesses hs.endpoint hs.tally rfl
        hs.results ?_
      unfold Station.underway
      rw [hs.outbound, hs.heldOut, hs.replies]
      rfl
  -- from any balanced history on, for the packets taken grow on the way
  suffices h : ∀ (h : History) (taken : List Udp.UserPacket),
      h.Balanced { bus := s.endpoint.bus } s.endpoint.port taken →
      ∃ taken, (events.foldl next h).Balanced { bus := s.endpoint.bus } s.endpoint.port taken from
    h _ _ hfresh
  induction events with
  | nil => exact fun h taken hb => ⟨taken, hb⟩
  | cons event events ih =>
    intro h taken hb
    obtain ⟨taken', hb'⟩ := next_balanced hb event
    exact ih _ taken' hb'

/-- In every run the replies that have left the endpoint are, in order, the
first ones of those the interpreter sends for the packets that arrived.  When a
step makes no progress although replies have room to leave, they are all of
them, the memory is the interpreter's, and so are the counts of packets. -/
theorem replies_refine_interpreter {s : Station} (hs : Fresh s) (events : List Event) :
    let h := run s events
    let i := ({ bus := s.endpoint.bus } : Interpreter).run s.endpoint.port h.arrived
    h.sent <+: i.replies ∧
      (h.station.step.progress = false → h.station.link.outbound.hasRoom = true →
        (h.next .step).sent = i.replies ∧ (h.next .step).station.endpoint.bus = i.bus ∧
          (h.next .step).station.endpoint.tally = i.tally) := by
  intro h i
  obtain ⟨taken, hb⟩ := run_balanced hs events
  refine ⟨?_, ?_⟩
  · -- what is sent, held and promised is what is sent for the packets taken
    have hreplies := hb.station.endpoint.replies
    have hmore := Interpreter.replies_prefix_run s.endpoint.port
      (({ bus := s.endpoint.bus } : Interpreter).run s.endpoint.port taken)
      h.station.link.inbound.items
    rw [← Interpreter.run_append, ← hb.arrived, ← hreplies] at hmore
    refine List.IsPrefix.trans ?_ hmore
    unfold sent Station.underway
    rw [← List.append_assoc, List.append_assoc]
    exact List.prefix_append ..
  · intro hstuck hroom
    obtain ⟨taken', harrived, hstation⟩ := next_balanced hb .step
    have hdrained := Station.drained_of_stuck hroom hb.station.listener
      hb.station.endpoint.formed.room hstuck
    have hall : taken' = h.arrived := by
      have heq : h.arrived = taken' ++ h.station.step.state.link.inbound.items := harrived
      rw [heq, hdrained.inbound, List.append_nil]
    rw [hall] at hstation
    obtain ⟨hbus, -, hreplies⟩ := hstation.endpoint.of_atRest hdrained.endpoint
    refine ⟨?_, hbus, hstation.endpoint.tally⟩
    show h.received ++ h.station.step.state.link.outbound.items = i.replies
    rw [← hreplies]
    unfold Station.underway
    show _ = h.received ++ (h.station.step.state.link.outbound.items ++
      h.station.step.state.endpoint.heldOut.toList) ++ h.station.step.state.endpoint.replies
    rw [hdrained.heldOut, hdrained.replies]
    simp

/-- With room for one access and one reply, a word is written, read back in the
same record and sent to its return address. -/
theorem replies_refine_interpreter_record :
    let s : Station := ⟨{ port := 20000, bus := .make 0 16, bufferDepth := 1 }, Link.make 1⟩
    let packet : Udp.UserPacket := .ofBytes (.ofNat 7) 20000 20000
      [0x4e, 0x6f, 0x10, 0x44, 0, 0, 0, 0, 0, 0x0f, 1, 1, 0, 0, 0, 4, 0xde, 0xad, 0xbe, 0xef,
       0, 0, 1, 0, 0, 0, 0, 4] 4
    let h := run s [.packet packet, .step, .step, .step, .step, .step, .replyTaken]
    Fresh s ∧ h.station.step.progress = false ∧ h.station.link.outbound.hasRoom = true ∧
      h.received = [.ofBytes (.ofNat 7) 20000 20000
        [0x4e, 0x6f, 0x10, 0x44, 0, 0, 0, 0, 0, 0x0f, 1, 0, 0, 0, 1, 0, 0xde, 0xad, 0xbe, 0xef] 4] ∧
      (h.next .step).sent =
        (({ bus := .make 0 16 } : Interpreter).run 20000 h.arrived).replies := by
  have hmade : Endpoint.make? 20000 4 (.make 0 16) 1 =
      .ok { port := 20000, bus := .make 0 16, bufferDepth := 1 } := rfl
  have hfresh := fresh_make hmade 1
  refine ⟨hfresh, by decide +kernel, by decide +kernel, by decide +kernel, ?_⟩
  exact ((replies_refine_interpreter hfresh _).2 (by decide +kernel) (by decide +kernel)).1

end History
end NetBoard.Etherbone
