/-
  NetBoard.Proofs.Icmp.Service
  ────────────────────────────
  **EVERY REQUEST IS ANSWERED ONCE, IN ORDER.**

  Of the messages that the service takes, those that ask are answered in the
  order in which they came, or wait in the buffer; the others are counted.
  Nothing is taken while the buffer is full, so nothing has to be dropped.
  While nobody takes the replies the oldest one is held and the others wait.

  Main definitions:

      Answers   — a reply and its request
      Delivers  — what has become of the replies
      History   — a service with all that went in and out of it
      Served    — what was taken is answered, waits, or was ignored

  Main statements:

      answerTo_answers            — a reply repeats its request
      Served.replyNext, Served.receive
                                  — what the two halves of a step keep
      Served.idle                 — a step that does nothing has nothing to do
      run_served                  — so does every run
      requests_answered_in_order  — the law of the service, over every run
-/
import NetBoard.Proofs.Icmp.EchoReply
import NetBoard.Proofs.Pipe

namespace NetBoard.Icmp

/-! ## §1. Requests and their replies. -/

/-- **A reply goes to where its request came from**, and its octets are those of the
request but for type and checksum. -/
structure Answers (reply request : Ip.Packet) : Prop where
  ip : reply.ip = request.ip
  protocol : reply.protocol = 1
  length : reply.payload.length = request.payload.length
  type : reply.payload[0]? = some 0
  kept : ∀ i, i ≠ 0 → i ≠ 2 → i ≠ 3 → reply.payload[i]? = request.payload[i]?

theorem answerTo_answers {request : Ip.Packet} (hlen : 8 ≤ request.payload.length) :
    Answers (answerTo request) request := by
  obtain ⟨ip, protocol, message⟩ := request
  obtain ⟨t, c, k₁, k₀, a₁, a₀, b₁, b₀, rest, rfl⟩ := Bytes.exists_octets hlen
  refine ⟨rfl, rfl, rfl, rfl, fun i htype hhigh hlow => ?_⟩
  -- the octets in front of the checksum and behind it stand where they stood
  match i with
  | 0 => exact absurd rfl htype
  | 1 => rfl
  | 2 => exact absurd rfl hhigh
  | 3 => exact absurd rfl hlow
  | _ + 4 => rfl

/-! ## §2. What becomes of the replies. -/

/-- Of the replies that were made all have departed, are in the pipe or are held.  If
nobody is there any more to take them, some of the last ones are lost. -/
structure Delivers (made departed : List Ip.Packet) (held : Option Ip.Packet)
    (outbound : Pipe Ip.Packet) : Prop where
  all : outbound.closed = false → departed ++ (outbound.items ++ held.toList) = made
  initial : departed ++ (outbound.items ++ held.toList) <+: made

namespace Delivers

variable {made departed : List Ip.Packet} {held : Option Ip.Packet} {outbound : Pipe Ip.Packet}

theorem flush (hd : Delivers made departed held outbound) :
    Delivers made departed (flush held outbound).2.1 (flush held outbound).2.2 := by
  refine ⟨fun hopen => ?_, ?_⟩
  · rw [closed_flush] at hopen
    rw [(flush_items hopen held).1]
    exact hd.all hopen
  · have hleft := flush_initial held outbound
    exact ((List.prefix_append_right_inj departed).2 hleft).trans hd.initial

/-- One more reply joins those that were made. -/
theorem send (hd : Delivers made departed none outbound) (reply : Ip.Packet) :
    Delivers (made ++ [reply]) departed (sendOrHold reply outbound).1
      (sendOrHold reply outbound).2 := by
  -- into a closed pipe the reply is gone, and what was there before is a prefix still
  cases hclosed : outbound.closed with
  | false =>
    have hall : departed ++ ((sendOrHold reply outbound).2.items ++
        (sendOrHold reply outbound).1.toList) = made ++ [reply] := by
      have hbefore := hd.all hclosed
      rw [Option.toList_none, List.append_nil] at hbefore
      rw [(sendOrHold_items hclosed reply).1, ← List.append_assoc, hbefore]
    exact ⟨fun _ => hall, hall ▸ List.prefix_refl _⟩
  | true =>
    have hlost : sendOrHold reply outbound = (none, outbound) := by
      rw [sendOrHold, flush_of_closed hclosed]
    rw [hlost]
    exact ⟨fun hopen => Bool.noConfusion (hclosed.symm.trans hopen),
      hd.initial.trans (List.prefix_append _ _)⟩

/-- The first reply in the pipe departs. -/
theorem depart (hd : Delivers made departed held outbound) {reply : Ip.Packet}
    {left : Pipe Ip.Packet} (htake : outbound.take = some (reply, left)) :
    Delivers made (departed ++ [reply]) held left := by
  obtain ⟨hitems, -, hends⟩ := Pipe.take_eq_some htake
  have hsame : departed ++ [reply] ++ (left.items ++ held.toList) =
      departed ++ (outbound.items ++ held.toList) := by
    rw [hitems, List.append_assoc]
    rfl
  refine ⟨fun hopen => hsame.trans (hd.all (hends ▸ hopen)), hsame ▸ hd.initial⟩

end Delivers

/-! ## §3. Steps that do nothing. -/

namespace Station

variable {s : Station}

theorem progress_accept (s : Station) (packet : Ip.Packet) :
    (s.accept packet).progress = true := by
  unfold accept
  dsimp only
  split <;> rfl

/-- No reply is made only if no request waits, or if the reply before is held in front of
a full pipe. -/
theorem reply_idle (h : s.reply.progress = false) :
    s.reply.state = s ∧
      (s.echo.heldOut = none ∧ s.echo.buffer = [] ∨
        s.echo.heldOut ≠ none ∧ s.link.outbound.closed = false ∧
          s.link.outbound.hasRoom = false) := by
  unfold reply at h ⊢
  cases hheld : s.echo.heldOut with
  | none =>
    rw [hheld] at h
    dsimp only at h ⊢
    unfold replyNext at h ⊢
    cases hbuffer : s.echo.buffer with
    | nil => exact ⟨rfl, .inl ⟨rfl, rfl⟩⟩
    | cons request buffer =>
      rw [hbuffer] at h
      cases h
  | some packet =>
    rw [hheld] at h
    dsimp only at h ⊢
    rcases flush_cases packet s.link.outbound with hstays | ⟨outbound, hleaves⟩
    · have hopen : s.link.outbound.closed = false := by
        cases hclosed : s.link.outbound.closed with
        | false => rfl
        | true =>
          rw [flush_of_closed hclosed] at hstays
          cases hstays
      have hfull := (flush_full (some packet) s.link.outbound).2
      rw [hstays] at hfull ⊢
      exact ⟨rfl, .inr ⟨nofun, hopen, hfull nofun⟩⟩
    · rw [hleaves] at h
      cases h

/-- No message is taken only if none is there, or if the buffer is full. -/
theorem receive_idle (h : s.receive.progress = false) :
    s.echo.depth ≤ s.echo.buffer.length ∨ s.link.inbound.items = [] := by
  unfold receive at h
  by_cases hfull : s.echo.depth ≤ s.echo.buffer.length
  · exact .inl hfull
  rw [if_neg hfull] at h
  cases htake : s.link.inbound.take with
  | none => exact .inr (Pipe.take_eq_none_iff.1 htake)
  | some next =>
    rw [htake] at h
    cases (progress_accept _ _).symm.trans h

end Station

/-! ## §4. Runs. -/

/-- What can happen to a service. -/
inductive Event where
  /-- A message is offered to the service. -/
  | arrive (message : Ip.Packet)
  /-- The IP layer takes a reply. -/
  | depart
  /-- The IP layer takes no more replies. -/
  | leave
  | step
  deriving Repr, DecidableEq

/-- A service, with all that went in and out of it, the oldest first. -/
structure History where
  station : Station
  /-- The messages that found room. -/
  arrived : List Ip.Packet := []
  /-- The replies that have left. -/
  departed : List Ip.Packet := []

/-- A service with which nothing has happened. -/
def fresh (width depth inDepth outDepth : Nat) : History :=
  { station := ⟨.make width depth, ⟨.make inDepth, .make outDepth⟩⟩ }

namespace History

/-- What one event does. -/
def next (h : History) (event : Event) : History :=
  let s := h.station
  match event with
  | .arrive message =>
    match s.link.inbound.offer message with
    | (.sent, inbound) =>
      { h with
        station := { s with link := { s.link with inbound } }
        arrived := h.arrived ++ [message] }
    | _ => h
  | .depart =>
    match s.link.outbound.take with
    | none => h
    | some (reply, outbound) =>
      { h with
        station := { s with link := { s.link with outbound } }
        departed := h.departed ++ [reply] }
  | .leave =>
    { h with station := { s with link := { s.link with outbound := s.link.outbound.close } } }
  | .step => { h with station := s.step.state }

/-- A run, the first event first. -/
def run (h : History) (events : List Event) : History := events.foldl next h

/-- The replies that have departed, those in the pipe, and the held one. -/
def replies (h : History) : List Ip.Packet :=
  h.departed ++ (h.station.link.outbound.items ++ h.station.echo.heldOut.toList)

/-- **What was taken is answered, waits, or was ignored.** -/
structure Served (places : Nat) (h : History) (taken answered waiting : List Ip.Packet) : Prop where
  works : h.station.echo.Works
  depth : h.station.echo.depth = places
  arrived : h.arrived = taken ++ h.station.link.inbound.items
  requests : taken.filter (Asks ·) = answered ++ waiting
  buffer : h.station.echo.buffer = waiting.map requestOf
  replies : Delivers (answered.map answerTo) h.departed h.station.echo.heldOut
    h.station.link.outbound
  stats : h.station.echo.stats =
    { echoRequests := (taken.filter (Asks ·)).length
      echoReplies := answered.length
      ignored := (taken.filter (¬Asks ·)).length }
  room : h.station.echo.buffer.length ≤ places

variable {h : History} {places : Nat} {taken answered waiting : List Ip.Packet}

theorem Served.asks (hs : Served places h taken answered waiting) {packet : Ip.Packet}
    (hmem : packet ∈ answered ++ waiting) : Asks packet := by
  rw [← hs.requests] at hmem
  exact of_decide_eq_true (List.mem_filter.1 hmem).2

/-- Nothing is left undone but what has to wait: a step without progress finds no message
and no request, or a held reply in front of a full pipe. -/
theorem Served.idle (hs : Served places h taken answered waiting) (hplaces : 0 < places)
    (hidle : h.station.step.progress = false) :
    (h.station.echo.heldOut = none ∧ waiting = [] ∧ h.station.link.inbound.items = []) ∨
      (h.station.echo.heldOut ≠ none ∧ h.station.link.outbound.closed = false ∧
        h.station.link.outbound.hasRoom = false ∧
        (waiting.length = places ∨ h.station.link.inbound.items = [])) := by
  rw [Station.step, Outcome.progress_andThen, Bool.or_eq_false_iff] at hidle
  obtain ⟨hsame, hreply⟩ := Station.reply_idle hidle.1
  have hreceive := hsame ▸ hidle.2
  have htaken := Station.receive_idle hreceive
  have hroom := hs.room
  rw [hs.depth, hs.buffer, List.length_map] at htaken
  rw [hs.buffer, List.length_map] at hroom
  rcases hreply with ⟨hheld, hempty⟩ | ⟨hheld, hopen, hfull⟩
  · -- an empty buffer has room, so it is the pipe that is empty
    rw [hs.buffer, List.map_eq_nil_iff] at hempty
    subst hempty
    exact .inl ⟨hheld, rfl, htaken.resolve_left (Nat.not_le.2 hplaces)⟩
  · exact .inr ⟨hheld, hopen, hfull, htaken.imp_left (Nat.le_antisymm hroom)⟩

/-- The oldest request that waits is answered. -/
theorem Served.replyNext (hs : Served places h taken answered waiting)
    (hheld : h.station.echo.heldOut = none) :
    ∃ answered waiting,
      Served places { h with station := h.station.replyNext.state } taken answered waiting := by
  cases waiting with
  | nil =>
    have hempty : h.station.echo.buffer = [] := hs.buffer
    unfold Station.replyNext
    rw [hempty]
    exact ⟨answered, [], hs⟩
  | cons packet waiting =>
    have hasks : Asks packet :=
      hs.asks (List.mem_append_right _ (List.mem_cons_self ..))
    have hsent := (hheld ▸ hs.replies).send (answerTo packet)
    have hroom := hs.room
    rw [hs.buffer] at hroom
    rw [Station.replyNext_eq hs.works hasks.1 hs.buffer]
    -- the first that waits becomes the last that is answered
    refine ⟨answered ++ [packet], waiting,
      { works := ⟨hs.works.packetizer_header, hs.works.packetizer_width,
          hs.works.depacketizer_format, hs.works.depacketizer_width⟩
        depth := hs.depth
        arrived := hs.arrived
        requests := ?_
        buffer := rfl
        replies := ?_
        stats := ?_
        room := Nat.le_of_succ_le hroom }⟩
    · rw [hs.requests, List.append_assoc]
      rfl
    · rw [List.map_append]
      exact hsent
    · rw [hs.stats, List.length_append]
      rfl

/-- A held reply goes first. -/
theorem Served.reply (hs : Served places h taken answered waiting) :
    ∃ answered waiting,
      Served places { h with station := h.station.reply.state } taken answered waiting := by
  unfold Station.reply
  cases hheld : h.station.echo.heldOut with
  | none => exact hs.replyNext hheld
  | some packet =>
    have hflushed := (hheld ▸ hs.replies).flush
    dsimp only
    rcases flush_cases packet h.station.link.outbound with hstays | ⟨outbound, hleaves⟩
    · rw [hstays]
      exact ⟨answered, waiting, hs⟩
    · -- the hold is free now, so the next reply may be made in the same step
      rw [hleaves] at hflushed ⊢
      have hmoved : Served places
          { h with
            station := { h.station with
              echo := { h.station.echo with heldOut := none }
              link := { h.station.link with outbound } } } taken answered waiting :=
        { hs with works := { hs.works with }, replies := hflushed }
      exact hmoved.replyNext rfl

/-- A message is taken only while the buffer has room. -/
theorem Served.receive (hs : Served places h taken answered waiting) :
    ∃ taken waiting,
      Served places { h with station := h.station.receive.state } taken answered waiting := by
  unfold Station.receive
  by_cases hfull : h.station.echo.depth ≤ h.station.echo.buffer.length
  · rw [if_pos hfull]
    exact ⟨taken, waiting, hs⟩
  rw [if_neg hfull]
  cases htake : h.station.link.inbound.take with
  | none => exact ⟨taken, waiting, hs⟩
  | some next =>
    obtain ⟨packet, inbound⟩ := next
    obtain ⟨hitems, -, -⟩ := Pipe.take_eq_some htake
    have harrived : h.arrived = taken ++ [packet] ++ inbound.items := by
      rw [hs.arrived, hitems, List.append_assoc]
      rfl
    obtain ⟨depacketizer, hformat, hwidth, haccept⟩ := Station.accept_eq
      (s := { h.station with link := { h.station.link with inbound } }) hs.works packet
    have hworks : Echo.Works { h.station.echo with depacketizer } :=
      ⟨hs.works.packetizer_header, hs.works.packetizer_width, hformat, hwidth⟩
    dsimp only
    rw [haccept]
    -- a request joins those that wait, anything else is only counted
    by_cases hasks : Asks packet
    · have hrequests : (taken ++ [packet]).filter (Asks ·) = answered ++ (waiting ++ [packet]) := by
        simp [List.filter_append, hs.requests, hasks]
      rw [if_pos hasks]
      refine ⟨taken ++ [packet], waiting ++ [packet],
        { works := { hworks with }
          depth := hs.depth
          arrived := harrived
          requests := hrequests
          buffer := ?_
          replies := hs.replies
          stats := ?_
          room := ?_ }⟩
      · rw [hs.buffer, List.map_append]
        rfl
      · rw [hs.stats]
        simp [List.filter_append, hasks]
      · rw [List.length_append, List.length_singleton, ← hs.depth]
        show h.station.echo.buffer.length + 1 ≤ h.station.echo.depth
        omega
    · rw [if_neg hasks]
      refine ⟨taken ++ [packet], waiting,
        { works := { hworks with }
          depth := hs.depth
          arrived := harrived
          requests := ?_
          buffer := hs.buffer
          replies := hs.replies
          stats := ?_
          room := hs.room }⟩
      · simp [List.filter_append, hasks, hs.requests]
      · rw [hs.stats]
        simp [List.filter_append, hasks]

/-- **An event keeps every request.** -/
theorem next_served (hs : Served places h taken answered waiting) (event : Event) :
    ∃ taken answered waiting, Served places (h.next event) taken answered waiting := by
  -- only a step moves requests; the other events change what is at the ends of the pipes
  cases event with
  | arrive message =>
    unfold next
    dsimp only
    split
    · next inbound hoffer =>
      have harrived : h.arrived ++ [message] = taken ++ inbound.items := by
        rw [(Pipe.offer_sent hoffer).1, hs.arrived, List.append_assoc]
      exact ⟨taken, answered, waiting, { hs with arrived := harrived }⟩
    · exact ⟨taken, answered, waiting, hs⟩
  | depart =>
    unfold next
    dsimp only
    split
    · exact ⟨taken, answered, waiting, hs⟩
    · next htake => exact ⟨taken, answered, waiting, { hs with replies := hs.replies.depart htake }⟩
  | leave =>
    have hreplies : Delivers (answered.map answerTo) h.departed h.station.echo.heldOut
        h.station.link.outbound.close := ⟨nofun, hs.replies.initial⟩
    exact ⟨taken, answered, waiting, { hs with replies := hreplies }⟩
  | step =>
    obtain ⟨answered, waiting, hreplied⟩ := hs.reply
    obtain ⟨taken, waiting, hreceived⟩ := hreplied.receive
    exact ⟨taken, answered, waiting, hreceived⟩

theorem fresh_served {width : Nat} (hw : FitsWord width) (depth inDepth outDepth : Nat) :
    Served (max depth 1) (fresh width depth inDepth outDepth) [] [] [] :=
  { works := Echo.works_make hw depth
    depth := rfl
    arrived := rfl
    requests := rfl
    buffer := rfl
    replies := ⟨fun _ => rfl, List.prefix_refl _⟩
    stats := rfl
    room := Nat.zero_le _ }

/-- **So does every run.** -/
theorem run_served (hs : Served places h taken answered waiting) (events : List Event) :
    ∃ taken answered waiting, Served places (h.run events) taken answered waiting := by
  induction events generalizing h taken answered waiting with
  | nil => exact ⟨taken, answered, waiting, hs⟩
  | cons event events ih =>
    obtain ⟨_, _, _, hnext⟩ := next_served hs event
    exact ih hnext

/-! ## §5. The law. -/

/-- **Every request is answered once, in order, or waits**, in every run: whatever
messages arrive, whatever the depths of buffer and pipes, and however slowly the replies
are taken.

The messages that were taken are the first ones that arrived.  Those of eight octets or
more with type 8 are the answered ones and behind them the ones that wait, of which there
are at most as many as the buffer has places.  The replies are those to the answered ones,
each to its sender and with the octets of its request but for type and checksum; only
after the IP layer has gone may the last of them be missing.  Every other message is
counted, and nothing is sent for it.  A step that does nothing has nothing to do, or the
pipe of the replies is full, one is held, and no message is there or the buffer is full. -/
theorem requests_answered_in_order {width : Nat} (hw : FitsWord width)
    (depth inDepth outDepth : Nat) (events : List Event) :
    let h := (fresh width depth inDepth outDepth).run events
    let echo := h.station.echo
    ∃ taken answered waiting,
      h.arrived = taken ++ h.station.link.inbound.items ∧
      taken.filter (fun p => 8 ≤ p.payload.length ∧ p.payload.head? = some 8) =
        answered ++ waiting ∧
      echo.buffer = waiting.map requestOf ∧
      waiting.length ≤ max 1 depth ∧
      (h.station.link.outbound.closed = false → h.replies = answered.map answerTo) ∧
      h.replies <+: answered.map answerTo ∧
      (∀ request ∈ answered, Answers (answerTo request) request) ∧
      echo.stats =
        { echoRequests := (answered ++ waiting).length
          echoReplies := answered.length
          ignored := (taken.filter fun p =>
            ¬(8 ≤ p.payload.length ∧ p.payload.head? = some 8)).length } ∧
      (h.station.step.progress = false →
        (echo.heldOut = none ∧ waiting = [] ∧ h.station.link.inbound.items = []) ∨
          (echo.heldOut ≠ none ∧ h.station.link.outbound.closed = false ∧
            h.station.link.outbound.hasRoom = false ∧
            (waiting.length = max 1 depth ∨ h.station.link.inbound.items = []))) := by
  intro h echo
  obtain ⟨taken, answered, waiting, hs⟩ :=
    run_served (fresh_served hw depth inDepth outDepth) events
  refine ⟨taken, answered, waiting, hs.arrived, hs.requests, hs.buffer, ?_, hs.replies.all,
    hs.replies.initial, fun request hmem => ?_, ?_, ?_⟩
  · have hroom := hs.room
    rwa [hs.buffer, List.length_map, Nat.max_comm] at hroom
  · exact answerTo_answers (hs.asks (List.mem_append_left _ hmem)).1
  · rw [← hs.requests]
    exact hs.stats
  · rw [Nat.max_comm]
    exact hs.idle (by omega)

/-- Three lanes, a buffer of one place, and an IP layer that takes nothing: of four requests
with two other messages between them the first is answered and in the pipe, the reply to
the second is held, the third waits, and the fourth has not been taken. -/
theorem requests_answered_in_order_pressed :
    let asking (n : UInt8) : Ip.Packet := ⟨⟨10, 0, 0, n⟩, protocol, [8, 0, 0, 0, 0, n, 0, 1, n]⟩
    let stray : Ip.Packet := ⟨⟨10, 0, 0, 9⟩, protocol, [0, 0, 0, 0, 0, 0, 0, 0]⟩
    let short : Ip.Packet := ⟨⟨10, 0, 0, 9⟩, protocol, [8, 0, 0]⟩
    let offered := [asking 1, stray, asking 2, short, asking 3, asking 4]
    let h := (fresh 3 0 8 0).run (offered.map .arrive ++ List.replicate 8 .step)
    FitsWord 3 ∧
      h.station.link.outbound.items = [answerTo (asking 1)] ∧
      h.station.echo.heldOut = some (answerTo (asking 2)) ∧
      h.station.echo.buffer = [requestOf (asking 3)] ∧
      h.station.link.inbound.items = [asking 4] ∧
      h.station.echo.stats = ⟨3, 2, 2⟩ ∧
      ∃ taken answered waiting, h.arrived = taken ++ [asking 4] ∧
        h.replies = answered.map answerTo ∧ waiting.length ≤ 1 ∧
        taken.filter (fun p => 8 ≤ p.payload.length ∧ p.payload.head? = some 8) =
          answered ++ waiting := by
  intro asking stray short offered h
  have hw : FitsWord 3 := ⟨by decide, by decide⟩
  have hopen : h.station.link.outbound.closed = false := by decide +kernel
  have hinbound : h.station.link.inbound.items = [asking 4] := by decide +kernel
  have hpipe : h.station.link.outbound.items = [answerTo (asking 1)] := by decide +kernel
  have hheld : h.station.echo.heldOut = some (answerTo (asking 2)) := by decide +kernel
  have hbuffer : h.station.echo.buffer = [requestOf (asking 3)] := by decide +kernel
  have hstats : h.station.echo.stats = ⟨3, 2, 2⟩ := by decide +kernel
  have hlaw := requests_answered_in_order hw 0 8 0 (offered.map .arrive ++ List.replicate 8 .step)
  have hrun : (fresh 3 0 8 0).run (offered.map .arrive ++ List.replicate 8 .step) = h := rfl
  dsimp only at hlaw
  rw [hrun] at hlaw
  obtain ⟨taken, answered, waiting, harrived, hrequests, -, hroom, hreplies, -⟩ := hlaw
  rw [hinbound] at harrived
  exact ⟨hw, hpipe, hheld, hbuffer, hinbound, hstats, taken, answered, waiting, harrived,
    hreplies hopen, hroom, hrequests⟩

end History
end NetBoard.Icmp
