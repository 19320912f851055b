/-
  NetBoard.Proofs.Streamer.Conservation
  ─────────────────────────────────────
  **A STREAMER LOSES NO BYTE.**

  A byte of an accepted datagram passes through the backlog and the receiving
  queue, in loopback also through the hold in front of the sending queue, and
  the sending queue is emptied into datagrams.  Every part of a step moves
  bytes from one of these places to the next one; what is read off the places
  in their order is never changed by it.  The two directions are joined by the
  bytes that loopback has moved from one to the other: without loopback there
  are none.

  A step that makes no progress has found every place empty but the sending
  queue, unless the port pushed back: the sending queue is never full after
  such a step, so the hold is empty, then the receiving queue, then the backlog.

  Main definitions:

      Parameters.accepted  — the bytes of the datagrams meant for the streamer
      Station.Moves        — all a part of a step does to the bytes
      History.Lossless     — what the world can check of a run

  Main statements:

      step_moves           — a step only moves bytes on
      step_drained         — a step without progress leaves nothing behind
      run_balanced         — over a run bytes are conserved in both directions
      bytes_conserved      — the same, seen from the port and the application
-/
import NetBoard.Streamer
import NetBoard.Proofs.Udp.Datagram

namespace NetBoard.Streamer

open Udp (UserPacket)

/-! ## §1. Parameters, and what is carried. -/

/-- Parameters that fit together leave room in the queues for a datagram, and
loopback knows where to send. -/
theorem Parameters.of_check {p : Parameters} (hp : p.check = .ok ()) :
    0 < p.rxDepth ∧ 0 < p.txDepth ∧ p.sendLevel ≤ p.txDepth ∧
      (p.loopback = true → p.remote ≠ none) := by
  unfold check at hp
  split_ifs at hp with hempty hlarge hlevel hremote
  refine ⟨by omega, by omega, by omega, ?_⟩
  intro hloop hnone
  exact hremote ⟨hloop, hnone⟩

/-- Is the datagram for the port, and from the remote host if there is one? -/
def Parameters.accepts (p : Parameters) (packet : UserPacket) : Bool :=
  packet.dstPort == p.port && p.remote.all (· == packet.ip)

/-- The bytes that datagrams carry on a port of `width` lanes. -/
def carried (width : Nat) (packets : List UserPacket) : Bytes :=
  packets.flatMap (·.bytes width)

/-- The bytes of those datagrams that are accepted. -/
def Parameters.accepted (p : Parameters) (width : Nat) (packets : List UserPacket) : Bytes :=
  carried width (packets.filter p.accepts)

theorem carried_append (width : Nat) (ps qs : List UserPacket) :
    carried width (ps ++ qs) = carried width ps ++ carried width qs :=
  List.flatMap_append

theorem Parameters.accepted_append (p : Parameters) (width : Nat) (ps qs : List UserPacket) :
    p.accepted width (ps ++ qs) = p.accepted width ps ++ p.accepted width qs := by
  unfold accepted
  rw [List.filter_append, carried_append]

/-! ## §2. Where bytes are. -/

/-- The received bytes that have gone nowhere yet, the oldest first. -/
def waiting (s : Streamer) : Bytes := s.heldLoop.toList ++ s.rxQueue.items ++ s.backlog

/-- A queue whose two ends the streamer keeps. -/
structure Queues (depth : Nat) (q : Pipe UInt8) : Prop where
  opened : q.closed = false
  bound : q.depth = depth
  within : q.items.length ≤ depth

/-- The streamer is the one that was asked for, and its port is there. -/
structure Serves (p : Parameters) (width : Nat) (s : Station) : Prop where
  port : s.streamer.port = p.port
  width : s.streamer.width = width
  remote : s.streamer.remote = p.remote
  sendLevel : s.streamer.sendLevel = p.sendLevel
  loopback : s.streamer.loopback = p.loopback
  tx : Queues p.txDepth s.streamer.txQueue
  rx : Queues p.rxDepth s.streamer.rxQueue
  opened : s.link.outbound.closed = false

/-- The datagrams on their way out, the oldest first. -/
def Station.outgoing (s : Station) : List UserPacket :=
  s.link.outbound.items ++ s.streamer.heldOut.toList

/-- A datagram of the least size or more, and no larger than the queue. -/
def Parameters.Fits (p : Parameters) (width : Nat) (packet : UserPacket) : Prop :=
  p.sendLevel ≤ (packet.bytes width).length ∧ (packet.bytes width).length ≤ p.txDepth

/-- All that a part of a step does: the datagrams `taken` leave the port, the
datagrams `made` are on their way out, and `looped` is sent back. -/
structure Station.Moves (p : Parameters) (width : Nat) (s t : Station)
    (taken made : List UserPacket) (looped : Bytes) : Prop where
  serves : Serves p width t
  inbound : s.link.inbound.items = taken ++ t.link.inbound.items
  outgoing : t.outgoing = s.outgoing ++ made
  received : looped ++ t.streamer.waiting = s.streamer.waiting ++ p.accepted width taken
  sending : carried width made ++ t.streamer.txQueue.items = s.streamer.txQueue.items ++ looped
  straight : p.loopback = false → looped = [] ∧ t.streamer.heldLoop = s.streamer.heldLoop
  sizes : ∀ packet ∈ made, p.Fits width packet

namespace Station

variable {p : Parameters} {width : Nat} {s t u : Station}

/-- Nothing moved. -/
theorem Moves.refl (hs : Serves p width s) : s.Moves p width s [] [] [] where
  serves := hs
  inbound := rfl
  outgoing := (List.append_nil _).symm
  received := (List.append_nil _).symm
  sending := (List.append_nil _).symm
  straight _ := ⟨rfl, rfl⟩
  sizes := by simp

/-- Two parts in a row. -/
theorem Moves.trans {taken made taken' made' : List UserPacket} {looped looped' : Bytes}
    (hst : s.Moves p width t taken made looped) (htu : t.Moves p width u taken' made' looped') :
    s.Moves p width u (taken ++ taken') (made ++ made') (looped ++ looped') where
  serves := htu.serves
  inbound := by rw [hst.inbound, htu.inbound, List.append_assoc]
  outgoing := by rw [htu.outgoing, hst.outgoing, List.append_assoc]
  received := by
    rw [List.append_assoc, htu.received, ← List.append_assoc, hst.received, List.append_assoc,
      p.accepted_append]
  sending := by
    rw [carried_append, List.append_assoc, htu.sending, ← List.append_assoc, hst.sending,
      List.append_assoc]
  straight hoff := by
    obtain ⟨hst, hheld⟩ := hst.straight hoff
    obtain ⟨htu, hheld'⟩ := htu.straight hoff
    exact ⟨by rw [hst, htu]; rfl, hheld'.trans hheld⟩
  sizes packet hmem := (List.mem_append.mp hmem).elim (hst.sizes packet) (htu.sizes packet)

end Station

/-! ## §3. Queues. -/

variable {p : Parameters} {width : Nat}

/-- An open queue accepts bytes in order, and at least one if it has room. -/
theorem Queues.offerMany {depth n : Nat} {q r : Pipe UInt8} {bs left : Bytes}
    (hq : Queues depth q) (hoffer : q.offerMany bs = (n, r, left)) :
    Queues depth r ∧ (∃ accepted, r.items = q.items ++ accepted ∧ accepted ++ left = bs) ∧
      (n = 0 → q.items.length < depth → bs = []) := by
  unfold Pipe.offerMany at hoffer
  rw [hq.opened, hq.bound] at hoffer
  simp only [Bool.false_eq_true, if_false, Prod.mk.injEq] at hoffer
  obtain ⟨rfl, rfl, rfl⟩ := hoffer
  refine ⟨⟨rfl, rfl, ?_⟩, ⟨_, rfl, List.take_append_drop _ bs⟩, ?_⟩
  · have := hq.within
    rw [List.length_append, List.length_take]
    omega
  · intro hnone hroom
    rw [List.length_take] at hnone
    exact List.eq_nil_of_length_eq_zero (by omega)

/-- What is taken are the oldest bytes. -/
theorem Queues.takeMany {depth : Nat} {q : Pipe UInt8} (hq : Queues depth q) (n : Nat) :
    Queues depth (q.takeMany n).2 ∧ (q.takeMany n).1 ++ (q.takeMany n).2.items = q.items :=
  ⟨⟨hq.opened, hq.bound, Nat.le_trans (List.drop_sublist n q.items).length_le hq.within⟩,
    List.take_append_drop n q.items⟩

theorem queues_make {depth : Nat} (hdepth : 0 < depth) : Queues depth (.make depth) :=
  ⟨rfl, Nat.max_eq_left hdepth, Nat.zero_le _⟩

namespace Station

/-! ## §4. The parts of a step. -/

variable {s : Station}

/-- The backlog goes to the end of the receiving queue. -/
theorem queueBacklog_moves (hs : Serves p width s) :
    s.Moves p width { s with streamer := s.streamer.queueBacklog.state } [] [] [] := by
  unfold queueBacklog
  cases hoffer : s.streamer.rxQueue.offerMany s.streamer.backlog with
  | mk n rest =>
    obtain ⟨rxQueue, backlog⟩ := rest
    refine { Moves.refl hs with
      serves := { hs with rx := (hs.rx.offerMany hoffer).1 }, received := ?_ }
    show s.streamer.heldLoop.toList ++ rxQueue.items ++ backlog =
      s.streamer.heldLoop.toList ++ s.streamer.rxQueue.items ++ s.streamer.backlog ++ []
    rw [List.append_assoc, (Pipe.offerMany_items hoffer).1, List.append_nil, List.append_assoc]

theorem isAddressed_eq (hs : Serves p width s) :
    s.streamer.isAddressed = p.accepts := by
  funext packet
  unfold isAddressed Parameters.accepts
  rw [hs.port, hs.remote]

/-- A datagram is taken: its bytes are the last ones that wait, if it is accepted. -/
theorem receiveNext_moves (hs : Serves p width s) :
    ∃ taken, s.Moves p width s.receiveNext.state taken [] [] := by
  unfold receiveNext
  cases htake : s.link.inbound.take with
  | none => exact ⟨[], Moves.refl hs⟩
  | some next =>
    obtain ⟨packet, inbound⟩ := next
    refine ⟨[packet], ?_⟩
    rw [Outcome.state_map]
    unfold accept
    by_cases haddressed : s.streamer.isAddressed packet
    · have haccepts : p.accepts packet = true := isAddressed_eq hs ▸ haddressed
      rw [if_pos haddressed]
      refine { Moves.refl hs with
        serves := { hs with }
        inbound := (Pipe.take_eq_some htake).1
        received := ?_ }
      show s.streamer.heldLoop.toList ++ s.streamer.rxQueue.items ++
        (s.streamer.backlog ++ packet.bytes s.streamer.width) = _
      unfold waiting Parameters.accepted carried
      rw [hs.width, List.filter_cons_of_pos haccepts]
      simp
    · have haccepts : ¬ p.accepts packet = true := isAddressed_eq hs ▸ haddressed
      rw [if_neg haddressed]
      refine { Moves.refl hs with
        serves := { hs with }
        inbound := (Pipe.take_eq_some htake).1
        received := ?_ }
      unfold Parameters.accepted carried
      rw [List.filter_cons_of_neg haccepts]
      exact (List.append_nil _).symm

theorem receive_moves (hs : Serves p width s) :
    ∃ taken, s.Moves p width s.receive.state taken [] [] := by
  have hqueued := queueBacklog_moves hs
  unfold receive
  dsimp only
  split
  · obtain ⟨taken, hnext⟩ := receiveNext_moves hqueued.serves
    exact ⟨taken, hqueued.trans hnext⟩
  · exact ⟨[], hqueued⟩

/-- Received bytes join those to be sent; the first one left over is held. -/
theorem loop_moves (hs : Serves p width s) (hloop : p.loopback = true) :
    ∃ looped, s.Moves p width { s with streamer := s.streamer.loop.state } [] [] looped := by
  unfold loop
  cases hoffer : s.streamer.txQueue.offerMany
      (s.streamer.heldLoop.toList ++ s.streamer.rxQueue.items) with
  | mk n rest =>
    obtain ⟨txQueue, left⟩ := rest
    obtain ⟨htx, ⟨looped, hitems, hsplit⟩, -⟩ := hs.tx.offerMany hoffer
    have hrest : left.head?.toList ++ left.tail = left := by cases left <;> rfl
    -- one byte may come from the hold, and one goes back to it
    have hwithin : left.tail.length ≤ p.rxDepth := by
      have hle : looped.length + left.length ≤ 1 + s.streamer.rxQueue.items.length := by
        rw [← List.length_append, hsplit, List.length_append]
        have := Option.length_toList_le (o := s.streamer.heldLoop)
        omega
      have := hs.rx.within
      rw [List.length_tail]
      omega
    refine ⟨looped, { Moves.refl hs with
      serves := { hs with tx := htx, rx := ⟨hs.rx.opened, hs.rx.bound, hwithin⟩ }
      received := ?_
      sending := hitems
      straight := fun hoff => absurd (hloop.symm.trans hoff) (by decide) }⟩
    show looped ++ (left.head?.toList ++ left.tail ++ s.streamer.backlog) =
      s.streamer.heldLoop.toList ++ s.streamer.rxQueue.items ++ s.streamer.backlog ++ []
    rw [hrest, ← List.append_assoc, hsplit, List.append_nil]

theorem loopIfAsked_moves (hs : Serves p width s) :
    ∃ looped, s.Moves p width { s with streamer := s.streamer.loopIfAsked.state } [] [] looped := by
  unfold loopIfAsked
  rw [hs.loopback]
  cases hloop : p.loopback with
  | false => exact ⟨[], Moves.refl hs⟩
  | true => exact loop_moves hs hloop

/-- All bytes that wait to be sent leave in one datagram, if they are enough. -/
theorem transmitNext_moves (hw : 0 < width) (h8 : width ≤ 8) (hs : Serves p width s)
    (hheld : s.streamer.heldOut = none) :
    ∃ made, s.Moves p width s.transmitNext.state [] made [] := by
  unfold transmitNext
  dsimp only
  cases hremote : s.streamer.remote with
  | none => exact ⟨[], Moves.refl hs⟩
  | some ip =>
    dsimp only
    by_cases hfew : s.streamer.txQueue.items.length < s.streamer.sendLevel
    · rw [if_pos hfew]
      exact ⟨[], Moves.refl hs⟩
    · rw [if_neg hfew]
      let bs := s.streamer.txQueue.items
      let packet :=
        UserPacket.ofBytes ip s.streamer.port s.streamer.port bs s.streamer.width
      have hbytes : packet.bytes width = bs := by
        rw [← hs.width]
        exact UserPacket.bytes_ofBytes (hs.width ▸ hw) (hs.width ▸ h8) ip _ _ bs
      obtain ⟨hitems, hopen⟩ := sendOrHold_items hs.opened packet
      have hempty : Queues p.txDepth { s.streamer.txQueue with items := [] } :=
        ⟨hs.tx.opened, hs.tx.bound, Nat.zero_le _⟩
      refine ⟨[packet], { Moves.refl hs with
        serves := { hs with remote := hremote.symm.trans hs.remote, tx := hempty, opened := hopen }
        outgoing := ?_, sending := ?_, sizes := ?_ }⟩
      · show _ = s.link.outbound.items ++ s.streamer.heldOut.toList ++ [packet]
        rw [hheld, Option.toList_none, List.append_nil]
        exact hitems
      · show carried width [packet] ++ [] = bs ++ []
        rw [carried, List.flatMap_singleton, hbytes]
      · intro sent hsent
        rw [List.mem_singleton.mp hsent, Parameters.Fits, hbytes, ← hs.sendLevel]
        exact ⟨Nat.le_of_not_lt hfew, hs.tx.within⟩

theorem transmit_moves (hw : 0 < width) (h8 : width ≤ 8) (hs : Serves p width s) :
    ∃ made, s.Moves p width s.transmit.state [] made [] := by
  unfold transmit
  cases hheld : s.streamer.heldOut with
  | none => exact transmitNext_moves hw h8 hs hheld
  | some packet =>
    obtain ⟨hitems, hopen⟩ := flush_items hs.opened (some packet)
    refine ⟨[], { Moves.refl hs with serves := { hs with opened := hopen }, outgoing := ?_ }⟩
    show _ = s.link.outbound.items ++ s.streamer.heldOut.toList ++ []
    rw [hheld, List.append_nil]
    exact hitems

/-! ## §5. Steps. -/

/-- A step only moves bytes on. -/
theorem step_moves (hw : 0 < width) (h8 : width ≤ 8) (hs : Serves p width s) :
    ∃ taken made looped, s.Moves p width s.step.state taken made looped := by
  obtain ⟨taken, hreceive⟩ := receive_moves hs
  obtain ⟨looped, hloop⟩ := loopIfAsked_moves hreceive.serves
  obtain ⟨made, htransmit⟩ := transmit_moves hw h8 hloop.serves
  refine ⟨taken, made, looped, ?_⟩
  have hmoves := (hreceive.trans hloop).trans htransmit
  simp only [List.append_nil, List.nil_append] at hmoves
  exact hmoves

/-! ## §6. Steps without progress. -/

/-- What is left behind if the port does not push back: too little for a datagram. -/
structure Drained (p : Parameters) (s : Station) : Prop where
  inbound : s.link.inbound.items = []
  waiting : s.streamer.waiting = []
  heldOut : s.streamer.heldOut = none
  few : s.streamer.txQueue.items.length < p.sendLevel

theorem outbound_receive (s : Station) : s.receive.state.link.outbound = s.link.outbound := by
  have hnext : ∀ u : Station, u.receiveNext.state.link.outbound = u.link.outbound := by
    intro u
    unfold receiveNext
    cases u.link.inbound.take <;> rfl
  unfold receive
  dsimp only
  split
  · exact hnext _
  · rfl

theorem progress_accept (t : Streamer) (packet : UserPacket) :
    (t.accept packet).progress = true := by
  unfold accept
  by_cases haddressed : t.isAddressed packet
  · rw [if_pos haddressed]; rfl
  · rw [if_neg haddressed]; rfl

theorem receiveNext_idle (hidle : s.receiveNext.progress = false) :
    s.receiveNext.state = s ∧ s.link.inbound.items = [] := by
  unfold receiveNext at hidle ⊢
  cases htake : s.link.inbound.take with
  | none => exact ⟨rfl, Pipe.take_eq_none_iff.mp htake⟩
  | some next =>
    rw [htake] at hidle
    exact absurd (hidle.symm.trans (progress_accept _ _)) (by decide)

/-- If nothing was received although the queue has room, nothing was there. -/
theorem receive_idle (hs : Serves p width s) (hidle : s.receive.progress = false)
    (hroom : s.receive.state.streamer.rxQueue.items.length < p.rxDepth) :
    s.receive.state.link.inbound.items = [] ∧ s.receive.state.streamer.backlog = [] := by
  unfold receive queueBacklog at hidle hroom ⊢
  cases hoffer : s.streamer.rxQueue.offerMany s.streamer.backlog with
  | mk n rest =>
    obtain ⟨rxQueue, backlog⟩ := rest
    obtain ⟨-, ⟨accepted, hitems, hsplit⟩, hnone⟩ := hs.rx.offerMany hoffer
    rw [hoffer] at hidle hroom
    dsimp only [Outcome.map] at hidle hroom ⊢
    cases hbacklog : backlog.isEmpty with
    | true =>
      rw [hbacklog, if_pos rfl] at hidle
      obtain ⟨-, hidle⟩ := Bool.or_eq_false_iff.mp hidle
      obtain ⟨hstate, hinbound⟩ := receiveNext_idle hidle
      rw [if_pos rfl, Outcome.state_andThen, hstate]
      exact ⟨hinbound, List.isEmpty_iff.mp hbacklog⟩
    | false =>
      -- some byte was left over although none was accepted: the queue is full
      rw [hbacklog, if_neg Bool.false_ne_true] at hidle hroom
      have hlength : rxQueue.items.length < p.rxDepth := hroom
      rw [hitems, List.length_append] at hlength
      have hempty := hnone (by simpa using hidle) (by omega)
      rw [hempty] at hsplit
      rw [(List.append_eq_nil_iff.mp hsplit).2] at hbacklog
      cases hbacklog

/-- If nothing was looped although the queue has room, nothing was there. -/
theorem loop_idle (hs : Serves p width s) (hidle : s.streamer.loop.progress = false)
    (hroom : s.streamer.loop.state.txQueue.items.length < p.txDepth) :
    s.streamer.rxQueue.items = [] ∧ s.streamer.loop.state.heldLoop = none ∧
      s.streamer.loop.state.rxQueue.items = [] := by
  unfold loop at hidle hroom ⊢
  cases hoffer : s.streamer.txQueue.offerMany
      (s.streamer.heldLoop.toList ++ s.streamer.rxQueue.items) with
  | mk n rest =>
    obtain ⟨txQueue, left⟩ := rest
    obtain ⟨-, ⟨looped, hitems, hsplit⟩, hnone⟩ := hs.tx.offerMany hoffer
    rw [hoffer] at hidle hroom
    have hlength : txQueue.items.length < p.txDepth := hroom
    rw [hitems, List.length_append] at hlength
    have hempty := hnone (by simpa using hidle) (by omega)
    rw [hempty] at hsplit
    rw [(List.append_eq_nil_iff.mp hsplit).2]
    exact ⟨(List.append_eq_nil_iff.mp hempty).2, rfl, rfl⟩

/-- If nothing was sent to a port with room, there was too little for a datagram. -/
theorem transmit_idle (hs : Serves p width s) (hremote : p.remote ≠ none)
    (hroom : s.link.outbound.hasRoom = true) (hidle : s.transmit.progress = false) :
    s.transmit.state = s ∧ s.streamer.heldOut = none ∧
      s.streamer.txQueue.items.length < p.sendLevel := by
  obtain ⟨ip, hip⟩ := Option.ne_none_iff_exists'.mp (hs.remote ▸ hremote)
  unfold transmit at hidle ⊢
  cases hheld : s.streamer.heldOut with
  | some packet =>
    rw [hheld] at hidle
    dsimp only at hidle
    rw [flush_of_open hs.opened, if_pos hroom] at hidle
    cases hidle
  | none =>
    rw [hheld] at hidle
    dsimp only at hidle ⊢
    unfold transmitNext at hidle ⊢
    dsimp only at hidle ⊢
    rw [hip] at hidle ⊢
    dsimp only at hidle ⊢
    by_cases hfew : s.streamer.txQueue.items.length < s.streamer.sendLevel
    · rw [if_pos hfew]
      exact ⟨rfl, rfl, hs.sendLevel ▸ hfew⟩
    · rw [if_neg hfew] at hidle
      cases hidle

/-- In loopback a step without progress leaves less than a datagram behind,
unless the port pushed back. -/
theorem step_drained (hs : Serves p width s) (hp : p.check = .ok ()) (hloop : p.loopback = true)
    (hroom : s.link.outbound.hasRoom = true) (hidle : s.step.progress = false) :
    s.step.state.Drained p := by
  obtain ⟨hrx, -, hlevel, hremote⟩ := Parameters.of_check hp
  let t := s.receive.state
  let u : Station := { t with streamer := t.streamer.loop.state }
  obtain ⟨_, hreceive⟩ := receive_moves hs
  obtain ⟨_, hlooped⟩ := loop_moves hreceive.serves hloop
  have hasked : t.streamer.loopIfAsked = t.streamer.loop := by
    rw [loopIfAsked, hreceive.serves.loopback, if_pos hloop]
  have hstep : s.step = (s.receive.andThen fun t =>
      t.streamer.loopIfAsked.map fun streamer => { t with streamer }).andThen transmit := rfl
  rw [hstep, Outcome.progress_andThen, Outcome.progress_andThen, Outcome.state_andThen,
    Outcome.progress_map, Outcome.state_map, hasked] at hidle
  obtain ⟨hfirst, hsend⟩ := Bool.or_eq_false_iff.mp hidle
  obtain ⟨hreceived, hturned⟩ := Bool.or_eq_false_iff.mp hfirst
  rw [hstep, Outcome.state_andThen, Outcome.state_andThen, Outcome.state_map, hasked]
  -- the sending queue has room, so the hold is empty, and the other places in turn
  obtain ⟨hstate, hheld, hfew⟩ := transmit_idle (s := u) hlooped.serves (hremote hloop)
    ((congrArg Pipe.hasRoom (outbound_receive s)).trans hroom) hsend
  obtain ⟨hempty, hslot, hqueue⟩ := loop_idle hreceive.serves hturned (Nat.lt_of_lt_of_le hfew hlevel)
  obtain ⟨hinbound, hbacklog⟩ := receive_idle hs hreceived (hempty ▸ hrx)
  show u.transmit.state.Drained p
  rw [hstate]
  refine ⟨hinbound, ?_, hheld, hfew⟩
  show t.streamer.loop.state.heldLoop.toList ++ t.streamer.loop.state.rxQueue.items ++
    t.streamer.backlog = []
  rw [hslot, hqueue, hbacklog]
  rfl

end Station

/-! ## §7. Runs. -/

/-- What can happen to a streamer. -/
inductive Event where
  /-- A datagram comes to the port, if there is room. -/
  | deliver (packet : UserPacket)
  /-- The port passes a datagram on. -/
  | collect
  /-- The application writes bytes, if it may. -/
  | write (bs : Bytes)
  /-- The application reads at most so many bytes, if it may. -/
  | read (n : Nat)
  | step
  deriving Repr, DecidableEq

/-- A streamer, with all that came to it and all that left it, the oldest first. -/
structure History where
  station : Station
  /-- The datagrams that came to the port. -/
  delivered : List UserPacket := []
  /-- The datagrams that the port has passed on. -/
  collected : List UserPacket := []
  /-- The bytes that the application could write. -/
  written : Bytes := []
  /-- The bytes that the application has read. -/
  obtained : Bytes := []

namespace History

/-- What one event does. -/
def next (h : History) (event : Event) : History :=
  let s := h.station
  match event with
  | .deliver packet =>
    match s.link.inbound.offer packet with
    | (.sent, inbound) =>
      { h with station := { s with link := { s.link with inbound } }
               delivered := h.delivered ++ [packet] }
    | _ => h
  | .collect =>
    match s.link.outbound.take with
    | none => h
    | some (packet, outbound) =>
      { h with station := { s with link := { s.link with outbound } }
               collected := h.collected ++ [packet] }
  | .write bs =>
    if s.streamer.isWritable then
      let (streamer, n) := s.streamer.write bs
      { h with station := { s with streamer }, written := h.written ++ bs.take n }
    else h
  | .read n =>
    if s.streamer.isReadable then
      let (streamer, bs) := s.streamer.read n
      { h with station := { s with streamer }, obtained := h.obtained ++ bs }
    else h
  | .step => { h with station := s.step.state }

/-- A run from a station. -/
def run (s : Station) (events : List Event) : History := events.foldl next { station := s }

/-- The datagrams produced: passed on, in the port, or held in front of it. -/
def produced (h : History) : List UserPacket := h.collected ++ h.station.outgoing

/-- The bytes of both directions are accounted for: what was received was read,
sent back, or waits; what was written or sent back left, or waits to be sent. -/
structure Balanced (p : Parameters) (width : Nat) (h : History) (taken : List UserPacket)
    (looped : Bytes) : Prop where
  serves : Serves p width h.station
  delivered : h.delivered = taken ++ h.station.link.inbound.items
  received : h.obtained ++ looped ++ h.station.streamer.waiting = p.accepted width taken
  sending : carried width h.produced ++ h.station.streamer.txQueue.items = h.written ++ looped
  straight : p.loopback = false → looped = [] ∧ h.station.streamer.heldLoop = none
  back : p.loopback = true → h.obtained = [] ∧ h.written = []
  sizes : ∀ packet ∈ h.produced, p.Fits width packet

section Events

variable {h : History} {taken : List UserPacket} {looped : Bytes}

/-- A datagram that comes waits in the port. -/
theorem Balanced.deliver (hb : h.Balanced p width taken looped) (packet : UserPacket) :
    (h.next (.deliver packet)).Balanced p width taken looped := by
  unfold next
  dsimp only
  split
  · next inbound hoffer =>
    have hs := hb.serves
    refine { hb with serves := { hs with }, delivered := ?_ }
    show h.delivered ++ [packet] = taken ++ inbound.items
    rw [(Pipe.offer_sent hoffer).1, hb.delivered, List.append_assoc]
  · exact hb

/-- A datagram that is collected only moves from the port to those passed on. -/
theorem Balanced.collect (hb : h.Balanced p width taken looped) :
    (h.next .collect).Balanced p width taken looped := by
  unfold next
  dsimp only
  split
  · exact hb
  · next packet outbound htake =>
    obtain ⟨hitems, -, hclosed⟩ := Pipe.take_eq_some htake
    have hs := hb.serves
    have hproduced : h.collected ++ [packet] ++
        (outbound.items ++ h.station.streamer.heldOut.toList) = h.produced := by
      unfold produced Station.outgoing
      rw [hitems, List.append_assoc]
      rfl
    refine { hb with
      serves := { hs with opened := hclosed.trans hs.opened }, sending := ?_, sizes := ?_ }
    · show carried width (h.collected ++ [packet] ++ (outbound.items ++ _)) ++ _ = _
      rw [hproduced]
      exact hb.sending
    · intro sent hsent
      exact hb.sizes sent (hproduced ▸ hsent)

/-- What the application may write is not looped, so its bytes are the last ones. -/
theorem Balanced.write (hb : h.Balanced p width taken looped) (bs : Bytes) :
    (h.next (.write bs)).Balanced p width taken looped := by
  unfold next
  dsimp only
  split
  · next hwritable =>
    have hs := hb.serves
    have hoff : p.loopback ≠ true := by
      intro hloop
      rw [isWritable, hs.loopback, hloop] at hwritable
      cases hwritable
    have hnone := (hb.straight (Bool.eq_false_iff.mpr hoff)).1
    unfold Streamer.write
    cases hoffer : h.station.streamer.txQueue.offerMany bs with
    | mk n rest =>
      obtain ⟨txQueue, left⟩ := rest
      obtain ⟨htx, ⟨accepted, hitems, hsplit⟩, -⟩ := hs.tx.offerMany hoffer
      have htake : bs.take n = accepted := by
        have hcount := (Pipe.offerMany_items hoffer).2
        rw [← hsplit, List.length_append] at hcount
        rw [← hsplit]
        exact List.take_left' (by omega)
      refine { hb with
        serves := { hs with tx := htx }, sending := ?_, back := fun hloop => absurd hloop hoff }
      show carried width h.produced ++ txQueue.items = h.written ++ bs.take n ++ looped
      rw [htake, hitems, ← List.append_assoc, hb.sending, hnone, List.append_nil, List.append_nil]
  · exact hb

/-- What the application may read is not looped, and waits in the queue for it. -/
theorem Balanced.read (hb : h.Balanced p width taken looped) (n : Nat) :
    (h.next (.read n)).Balanced p width taken looped := by
  unfold next
  dsimp only
  split
  · next hreadable =>
    have hs := hb.serves
    have hoff : p.loopback ≠ true := by
      intro hloop
      rw [isReadable, hs.loopback, hloop] at hreadable
      cases hreadable
    obtain ⟨hnone, hslot⟩ := hb.straight (Bool.eq_false_iff.mpr hoff)
    unfold Streamer.read
    obtain ⟨hrx, hsplit⟩ := hs.rx.takeMany n
    refine { hb with
      serves := { hs with rx := hrx }, received := ?_, back := fun hloop => absurd hloop hoff }
    have hreceived := hb.received
    unfold waiting at hreceived
    rw [hnone, hslot, ← hsplit] at hreceived
    show h.obtained ++ (h.station.streamer.rxQueue.takeMany n).1 ++ looped ++
      (h.station.streamer.heldLoop.toList ++ (h.station.streamer.rxQueue.takeMany n).2.items ++
        h.station.streamer.backlog) = _
    rw [hnone, hslot, ← hreceived]
    simp only [Option.toList_none, List.append_nil, List.nil_append, List.append_assoc]
  · exact hb

/-- A step moves bytes on, in both directions. -/
theorem Balanced.step (hb : h.Balanced p width taken looped) {taken' made : List UserPacket}
    {looped' : Bytes} (hstep : h.station.Moves p width h.station.step.state taken' made looped') :
    (h.next .step).Balanced p width (taken ++ taken') (looped ++ looped') := by
  have hproduced : (h.next .step).produced = h.produced ++ made := by
    show h.collected ++ h.station.step.state.outgoing = _
    rw [hstep.outgoing, ← List.append_assoc]
    rfl
  refine {
    serves := hstep.serves, delivered := ?_, received := ?_, sending := ?_, straight := ?_
    back := hb.back, sizes := ?_ }
  · show h.delivered = taken ++ taken' ++ h.station.step.state.link.inbound.items
    rw [hb.delivered, hstep.inbound, List.append_assoc]
  · show h.obtained ++ (looped ++ looped') ++ h.station.step.state.streamer.waiting = _
    rw [p.accepted_append, ← hb.received, ← List.append_assoc, List.append_assoc,
      hstep.received, List.append_assoc (h.obtained ++ looped)]
  · show carried width (h.next .step).produced ++ h.station.step.state.streamer.txQueue.items =
      h.written ++ (looped ++ looped')
    rw [hproduced, carried_append, List.append_assoc, hstep.sending, ← List.append_assoc,
      hb.sending, List.append_assoc]
  · intro hoff
    obtain ⟨hbefore, hslot⟩ := hb.straight hoff
    obtain ⟨hnow, hkept⟩ := hstep.straight hoff
    exact ⟨by rw [hbefore, hnow]; rfl, hkept.trans hslot⟩
  · rw [hproduced]
    intro packet hmem
    exact (List.mem_append.mp hmem).elim (hb.sizes packet) (hstep.sizes packet)

/-- One event keeps the bytes of both directions accounted for. -/
theorem next_balanced (hw : 0 < width) (h8 : width ≤ 8) (hb : h.Balanced p width taken looped)
    (event : Event) : ∃ taken looped, (h.next event).Balanced p width taken looped := by
  cases event with
  | deliver packet => exact ⟨taken, looped, hb.deliver packet⟩
  | collect => exact ⟨taken, looped, hb.collect⟩
  | write bs => exact ⟨taken, looped, hb.write bs⟩
  | read n => exact ⟨taken, looped, hb.read n⟩
  | step =>
    obtain ⟨taken', made, looped', hstep⟩ := Station.step_moves hw h8 hb.serves
    exact ⟨_, _, hb.step hstep⟩

end Events

/-- A streamer that was just made, on an empty port. -/
theorem balanced_make {made : Streamer × List Log.Line} (depth : Nat)
    (hmake : make? width p = .ok made) :
    p.check = .ok () ∧
      ({ station := ⟨made.1, Link.make depth⟩ } : History).Balanced p width [] [] := by
  unfold make? at hmake
  cases hcheck : p.check with
  | error fault =>
    rw [hcheck] at hmake
    cases hmake
  | ok =>
    rw [hcheck] at hmake
    obtain rfl := (Except.ok.inj hmake).symm
    obtain ⟨hrx, htx, -, -⟩ := Parameters.of_check hcheck
    exact ⟨rfl, {
      serves := ⟨rfl, rfl, rfl, rfl, rfl, queues_make htx, queues_make hrx, rfl⟩
      delivered := rfl, received := rfl, sending := rfl
      straight := fun _ => ⟨rfl, rfl⟩, back := fun _ => ⟨rfl, rfl⟩
      sizes := by intro packet hmem; cases hmem }⟩

/-- A run keeps the bytes of both directions accounted for. -/
theorem run_balanced (hw : 0 < width) (h8 : width ≤ 8) {s : Station}
    (hs : ({ station := s } : History).Balanced p width [] []) (events : List Event) :
    ∃ taken looped, (run s events).Balanced p width taken looped := by
  suffices h : ∀ (h : History) (taken : List UserPacket) (looped : Bytes),
      h.Balanced p width taken looped →
      ∃ taken looped, (events.foldl next h).Balanced p width taken looped from h _ _ _ hs
  induction events with
  | nil => exact fun h taken looped hb => ⟨taken, looped, hb⟩
  | cons event events ih =>
    intro h taken looped hb
    obtain ⟨taken, looped, hnext⟩ := next_balanced hw h8 hb event
    exact ih _ _ _ hnext

/-! ## §8. Conservation. -/

/-- No byte is lost, doubled or moved before another one. -/
structure Lossless (p : Parameters) (width : Nat) (h : History) : Prop where
  /-- Of the datagrams that came to the port the latest ones wait there; the
  bytes of those taken before and accepted were read, or wait for the
  application or in the backlog.  In loopback they were sent back, or wait on
  their way back. -/
  received : ∃ taken, h.delivered = taken ++ h.station.link.inbound.items ∧
    (p.loopback = false → h.obtained ++ h.station.streamer.rxQueue.items ++
      h.station.streamer.backlog = p.accepted width taken) ∧
    (p.loopback = true → carried width h.produced ++ h.station.streamer.txQueue.items ++
      h.station.streamer.heldLoop.toList ++ h.station.streamer.rxQueue.items ++
      h.station.streamer.backlog = p.accepted width taken)
  /-- The bytes of the application left, or wait to be sent. -/
  sent : p.loopback = false →
    carried width h.produced ++ h.station.streamer.txQueue.items = h.written
  /-- Datagrams are neither too small nor too large. -/
  sizes : ∀ packet ∈ h.produced, p.Fits width packet
  /-- Loopback knows where to send. -/
  remote : p.loopback = true → p.remote ≠ none
  /-- Loopback comes to rest only with less than a datagram to be sent. -/
  drained : p.loopback = true → h.station.link.outbound.hasRoom = true →
    h.station.step.progress = false → h.station.step.state.Drained p

/-- In every run of a streamer bytes are conserved: those of the accepted
datagrams on their way to the application or back to the port, and those of
the application on their way to the port. -/
theorem bytes_conserved {depth : Nat} {made : Streamer × List Log.Line} (hw : 0 < width)
    (h8 : width ≤ 8) (hmake : make? width p = .ok made) (events : List Event) :
    (run ⟨made.1, Link.make depth⟩ events).Lossless p width := by
  obtain ⟨hcheck, hstart⟩ := balanced_make depth hmake
  obtain ⟨taken, looped, hb⟩ := run_balanced hw h8 hstart events
  refine ⟨⟨taken, hb.delivered, ?_, ?_⟩, ?_, hb.sizes, (Parameters.of_check hcheck).2.2.2, ?_⟩
  · intro hoff
    obtain ⟨hnone, hslot⟩ := hb.straight hoff
    have hreceived := hb.received
    rw [hnone, waiting, hslot] at hreceived
    simpa using hreceived
  · intro hloop
    obtain ⟨hread, hwritten⟩ := hb.back hloop
    have hsending := hb.sending
    have hreceived := hb.received
    rw [hwritten, List.nil_append] at hsending
    rw [hread, List.nil_append, waiting] at hreceived
    rw [hsending, ← hreceived]
    simp only [List.append_assoc]
  · intro hoff
    have hsending := hb.sending
    rwa [(hb.straight hoff).1, List.append_nil] at hsending
  · intro hloop hroom hidle
    exact Station.step_drained hb.serves hcheck hloop hroom hidle

/-- In loopback the port pushes back on a streamer of small queues; five bytes
of one datagram go back in two, the datagram of another host is filtered, and
one byte is left. -/
theorem bytes_conserved_loopback :
    let p : Parameters :=
      { remote := some (.ofNat 7), rxDepth := 2, txDepth := 3, sendLevel := 2, loopback := true }
    let packet (ip : Ipv4) (bs : Bytes) := UserPacket.ofBytes ip 9 p.port bs 4
    let events : List Event :=
      [.deliver (packet (.ofNat 7) [1, 2, 3, 4, 5]), .step, .deliver (packet (.ofNat 8) [6]), .step,
       .step, .read 4, .step, .write [8], .step, .collect, .step, .step, .step]
    ∃ made, make? 4 p = .ok made ∧
      let h := run ⟨made.1, Link.make 1⟩ events
      h.Lossless p 4 ∧ carried 4 h.collected = [1, 2] ∧ carried 4 h.produced = [1, 2, 3, 4] ∧
        h.station.streamer.txQueue.items = [5] ∧ h.station.step.progress = false := by
  refine ⟨_, rfl, bytes_conserved (by decide) (by decide) rfl _, ?_⟩
  decide +kernel

end History
end NetBoard.Streamer
