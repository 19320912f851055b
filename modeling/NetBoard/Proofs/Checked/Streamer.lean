/-
  NetBoard.Proofs.Checked.Streamer
  ────────────────────────────────
  **THE BYTE STREAMER, CHECKED.**

  Loopback takes a received byte only when the hold in front of the sending
  queue is free, one byte after the other.  Written so, it moves the bytes that
  the plain function moves at once: the queue has both its ends at the
  streamer, so nothing that is put into it disappears.

  Main definition:

      moveOn!              — bytes through the hold, one after the other

  Main statements:

      moveOn!_eq           — the bytes moved are those that the queue has room for
      Station.Formed.step! — a step of a streamer
-/
import NetBoard.Proofs.Checked.Transport
import NetBoard.Streamer

namespace NetBoard

open Checked

/-! ## §1. Offering one byte after the other. -/

namespace Pipe

variable {α : Type} {q : Pipe α}

/-- Offering nothing changes nothing. -/
theorem offerMany_nil (q : Pipe α) : q.offerMany [] = (0, q, []) := by
  unfold offerMany
  split
  · rfl
  · simp

/-- With room the first item goes in, and the others are offered after it. -/
theorem offerMany_cons_of_room (hopen : q.closed = false) (hroom : q.hasRoom = true) (item : α)
    (items : List α) :
    q.offerMany (item :: items) =
      let offered := { q with items := q.items ++ [item] }.offerMany items
      (offered.1 + 1, offered.2) := by
  have hlt : q.items.length < q.depth := of_decide_eq_true hroom
  obtain ⟨room, hdepth⟩ : ∃ room, q.depth - q.items.length = room + 1 :=
    ⟨q.depth - q.items.length - 1, by omega⟩
  have hnext : q.depth - (q.items ++ [item]).length = room := by
    rw [List.length_append, List.length_singleton]
    omega
  unfold offerMany
  dsimp only
  rw [hopen, if_neg Bool.false_ne_true, if_neg Bool.false_ne_true, hdepth, hnext,
    List.take_succ_cons, List.drop_succ_cons, List.append_assoc]
  rfl

/-- Without room nothing goes in. -/
theorem offerMany_of_full (hfull : q.hasRoom = false) (items : List α) :
    q.offerMany items = (0, q, items) := by
  have hle : q.depth ≤ q.items.length := Nat.le_of_not_lt (of_decide_eq_false hfull)
  unfold offerMany
  split
  · rfl
  · rw [Nat.sub_eq_zero_of_le hle]
    simp

/-- A queue is not closed by what is offered. -/
theorem closed_offerMany (q : Pipe α) (items : List α) :
    (q.offerMany items).2.1.closed = q.closed := by
  unfold offerMany
  split <;> rfl

end Pipe

namespace Streamer

/-- Move what is held, then one received byte after the other through the hold,
until the queue is full: did any move, what is held, the queue, what is left. -/
def moveOn! (progress : Bool) (held : Option UInt8) (q : Pipe UInt8) (received : Bytes) :
    Checked (Bool × Option UInt8 × Pipe UInt8 × Bytes) :=
  let (left, held', q) := flush held q
  if held.isSome && !left then return (progress, held', q, received)
  else
    match received with
    | [] => return (progress || left, held', q, [])
    | byte :: rest => do moveOn! (progress || left) (← put held' byte) q rest

/-- What the queue has room for moves, and one byte more is held. -/
theorem moveOn!_eq (received : Bytes) {q : Pipe UInt8} (hopen : q.closed = false)
    (progress : Bool) (held : Option UInt8) :
    moveOn! progress held q received =
      let offered := q.offerMany (held.toList ++ received)
      .ok (progress || decide (0 < offered.1), offered.2.2.head?, offered.2.1,
        offered.2.2.tail) := by
  induction received generalizing progress held q with
  | nil =>
    unfold moveOn!
    cases held with
    | none =>
      rw [Option.toList_none, List.append_nil, Pipe.offerMany_nil]
      rfl
    | some byte =>
      rw [Option.toList_some, List.append_nil, flush_of_open hopen]
      cases hroom : q.hasRoom with
      | true =>
        rw [Pipe.offerMany_cons_of_room hopen hroom, Pipe.offerMany_nil]
        rfl
      | false =>
        rw [Pipe.offerMany_of_full hroom]
        exact congrArg (fun progress => Except.ok (progress, some byte, q, []))
          (Bool.or_false progress).symm
  | cons next rest ih =>
    unfold moveOn!
    cases held with
    | none =>
      show moveOn! (progress || false) (some next) q rest = _
      rw [Bool.or_false, ih hopen]
      rfl
    | some byte =>
      rw [flush_of_open hopen, Option.toList_some, List.singleton_append]
      cases hroom : q.hasRoom with
      | true =>
        -- the byte that was held is in the queue, and the next one is held
        have hone := ih (q := { q with items := q.items ++ [byte] }) hopen (progress || true)
          (some next)
        rw [Pipe.offerMany_cons_of_room hopen hroom]
        refine hone.trans ?_
        simp
      | false =>
        rw [Pipe.offerMany_of_full hroom]
        exact congrArg (fun progress => Except.ok (progress, some byte, q, next :: rest))
          (Bool.or_false progress).symm

/-! ## §2. Steps. -/

/-- The bytes received are moved over to those to be sent, one after the other. -/
def loop! (s : Streamer) : Checked (Outcome Streamer) := do
  let (progress, heldLoop, txQueue, left) ← moveOn! false s.heldLoop s.txQueue s.rxQueue.items
  return { state := { s with txQueue, heldLoop, rxQueue := { s.rxQueue with items := left } }
           progress }

/-- Bytes are sent back only if the streamer is to do so. -/
def loopIfAsked! (s : Streamer) : Checked (Outcome Streamer) :=
  if s.loopback then s.loop! else return .idle s

/-- The bytes of a datagram for this port wait for the application. -/
def accept! (s : Streamer) (p : Udp.UserPacket) : Checked (Outcome Streamer) :=
  if s.isAddressed p then do
    let bs ← p.bytes! s.width
    let stats := { s.stats with
      rxDatagrams := s.stats.rxDatagrams + 1, rxBytes := s.stats.rxBytes + bs.length }
    return .moved { s with stats, backlog := s.backlog ++ bs }
  else
    let stats := { s.stats with rxFiltered := s.stats.rxFiltered + 1 }
    return .moved { s with stats }
      [⟨Log.high, source,
        s!"ignoring datagram from {p.ip.text}:{p.srcPort} to port {p.dstPort}"⟩]

/-- The port is of a supported width, and the streamer has both ends of its queue. -/
structure Formed (s : Streamer) : Prop where
  width : SupportedWidth s.width
  opened : s.txQueue.closed = false

variable {s : Streamer}

/-- So is every streamer on such a port. -/
theorem formed_make? {width : Nat} (hw : SupportedWidth width) {p : Parameters}
    {made : Streamer × List Log.Line} (h : make? width p = .ok made) : made.1.Formed := by
  unfold make? at h
  cases hcheck : p.check with
  | error fault =>
    rw [hcheck] at h
    cases h
  | ok checked =>
    rw [hcheck] at h
    cases h
    exact ⟨hw, rfl⟩

/-- The hold is free for every byte that is put into it. -/
theorem Formed.loop! (hs : s.Formed) : Runs Formed s.loop! s.loop := by
  have hkept := s.txQueue.closed_offerMany (s.heldLoop.toList ++ s.rxQueue.items)
  unfold Streamer.loop! loop
  rw [moveOn!_eq _ hs.opened]
  exact .pure ⟨hs.width, hkept.trans hs.opened⟩

/-- So the step runs in both modes. -/
theorem Formed.loopIfAsked! (hs : s.Formed) : Runs Formed s.loopIfAsked! s.loopIfAsked := by
  unfold Streamer.loopIfAsked! loopIfAsked
  split
  · exact hs.loop!
  · exact .pure hs

/-- Any datagram is taken or counted. -/
theorem Formed.accept! (hs : s.Formed) (p : Udp.UserPacket) :
    Runs Formed (s.accept! p) (s.accept p) := by
  unfold Streamer.accept! accept
  split
  · rw [p.bytes!_eq hs.width]
    exact .pure ⟨hs.width, hs.opened⟩
  · exact .pure ⟨hs.width, hs.opened⟩

/-- The application's writing keeps it so. -/
theorem Formed.write (hs : s.Formed) (bs : Bytes) : (s.write bs).1.Formed :=
  ⟨hs.width, (s.txQueue.closed_offerMany bs).trans hs.opened⟩

namespace Station

/-- The next datagram from below. -/
def receiveNext! (s : Station) : Checked (Outcome Station) :=
  match s.link.inbound.take with
  | none => return .idle s
  | some (packet, inbound) =>
    map (fun streamer => { streamer, link := { s.link with inbound } }) (s.streamer.accept! packet)

/-- Bytes of the last datagram go first; the next one is taken when none are left. -/
def receive! (s : Station) : Checked (Outcome Station) :=
  let o := s.streamer.queueBacklog.map fun streamer => { s with streamer }
  if o.state.streamer.backlog.isEmpty then andThen (return o) receiveNext! else return o

/-- The bytes to be sent become one datagram, which is put into the hold. -/
def transmitNext! (s : Station) : Checked (Outcome Station) :=
  let t := s.streamer
  match t.remote with
  | none => return .idle s
  | some ip =>
    let payload := t.txQueue.items
    if payload.length < t.sendLevel then return .idle s
    else do
      let packet ← Udp.UserPacket.ofBytes! ip t.port t.port payload t.width
      let (heldOut, outbound) ← send t.heldOut packet s.link.outbound
      let stats := { t.stats with
        txDatagrams := t.stats.txDatagrams + 1, txBytes := t.stats.txBytes + payload.length }
      return .moved { streamer := { t with heldOut, stats, txQueue := { t.txQueue with items := [] } }
                      link := { s.link with outbound } }
        [⟨Log.extensive, source, s!"sending {payload.length} bytes to {ip.text}"⟩]

/-- The datagram that is held goes first, and nothing follows it in the same step. -/
def transmit! (s : Station) : Checked (Outcome Station) :=
  match s.streamer.heldOut with
  | none => s.transmitNext!
  | some packet =>
    let (left, heldOut, outbound) := flush (some packet) s.link.outbound
    return { state := { streamer := { s.streamer with heldOut }, link := { s.link with outbound } }
             progress := left }

/-- Receiving, sending back, and sending, in this order. -/
def step! (s : Station) : Checked (Outcome Station) :=
  andThen (andThen s.receive! fun s =>
    map (fun streamer => { s with streamer }) s.streamer.loopIfAsked!) transmit!

/-- The streamer of the station is formed. -/
abbrev Formed (s : Station) : Prop := s.streamer.Formed

variable {s : Station}

/-- Any datagram is taken. -/
theorem Formed.receiveNext! (hs : s.Formed) : Runs Formed s.receiveNext! s.receiveNext := by
  unfold Station.receiveNext! receiveNext
  cases s.link.inbound.take with
  | none => exact .pure hs
  | some taken =>
    obtain ⟨packet, inbound⟩ := taken
    exact (Streamer.Formed.accept! hs packet).map fun _ hs => hs

/-- Whether bytes wait or not, the step runs. -/
theorem Formed.receive! (hs : s.Formed) : Runs Formed s.receive! s.receive := by
  have hqueued : Runs Formed (.ok (s.streamer.queueBacklog.map fun streamer => { s with streamer }))
      (s.streamer.queueBacklog.map fun streamer => { s with streamer }) :=
    .pure ⟨hs.width, hs.opened⟩
  unfold Station.receive! receive
  dsimp only
  split
  · exact hqueued.andThen fun _ hs => Formed.receiveNext! hs
  · exact hqueued

/-- With a free hold any bytes are sent. -/
theorem Formed.transmitNext! (hs : s.Formed) (hfree : s.streamer.heldOut = none) :
    Runs Formed s.transmitNext! s.transmitNext := by
  unfold Station.transmitNext! transmitNext
  dsimp only
  cases s.streamer.remote with
  | none => exact .pure hs
  | some ip =>
    dsimp only
    split
    · exact .pure hs
    · rw [Udp.UserPacket.ofBytes!_eq hs.width, ok_bind, send_ok hfree]
      exact .pure ⟨hs.width, hs.opened⟩

/-- The hold is free where a datagram is put into it. -/
theorem Formed.transmit! (hs : s.Formed) : Runs Formed s.transmit! s.transmit := by
  unfold Station.transmit! transmit
  cases hheld : s.streamer.heldOut with
  | none => exact hs.transmitNext! hheld
  | some packet => exact .pure ⟨hs.width, hs.opened⟩

/-- Whatever datagrams and bytes come, they do not stop a streamer. -/
theorem Formed.step! (hs : s.Formed) : Runs Formed s.step! s.step :=
  (hs.receive!.andThen fun _ hs =>
    (Streamer.Formed.loopIfAsked! hs).map fun _ hs => hs).andThen fun _ hs => Formed.transmit! hs

end Station
end Streamer
end NetBoard
