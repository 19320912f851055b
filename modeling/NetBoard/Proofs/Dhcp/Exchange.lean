/-
  NetBoard.Proofs.Dhcp.Exchange
  ─────────────────────────────
  **AN ADDRESS IS BOUND IN THE EXCHANGE THAT OFFERED IT.**

  An exchange has one course: a discovery leaves, an offer is taken, a request
  for it leaves, and it is acknowledged; messages that are none of these are
  taken in between and dropped.  The client can give up at any point of the
  course, but it cannot leave it: the offer that it keeps is the one of this
  exchange when the request is written, because only taking an offer leads
  there, and a message is held back only while the client listens, because
  nothing else happens until it has left.

  A history watches a client from the outside: the messages that leave, those
  that are taken while the client listens, and where exchanges begin.

  Main definitions:

      Course             — what an exchange looks like in each phase
      Station.Proceeds   — all that one transition can do
      Client.Stands      — where a client stands in an exchange
      History.Faithful   — what is seen of a run

  Main statements:

      proceed_proceeds   — a transition does one of these
      step_follows       — a step continues the course of its exchange
      step_unaffected    — messages that are of no concern only count
      run_sound          — over a run each exchange follows the course
      bound_as_offered   — what is bound was offered, requested and acknowledged
-/
import NetBoard.Proofs.Dhcp.Message

namespace NetBoard.Dhcp

open Udp (UserPacket)

/-! ## §1. The course of an exchange. -/

/-- What a client is seen to do in an exchange. -/
inductive Deed where
  /-- A message leaves. -/
  | sent (p : UserPacket)
  /-- A message is taken. -/
  | took (p : UserPacket)
  deriving Repr, DecidableEq

/-- The course of an exchange up to a phase, with the offer accepted in it; it
ends in rest, when the offer is acknowledged. -/
inductive Course (mac : MacAddress) (xid : UInt32) (width : Nat) :
    Phase → Option Reply → List Deed → Prop where
  | begun : Course mac xid width .sendDiscover none []
  | discovered {ds p} : Course mac xid width .sendDiscover none ds →
      Solicits mac xid width none p → Course mac xid width .receiveOffer none (ds ++ [.sent p])
  | unoffered {ds} (p) : Course mac xid width .receiveOffer none ds →
      Course mac xid width .receiveOffer none (ds ++ [.took p])
  | offered {ds p offer} : Course mac xid width .receiveOffer none ds →
      Answers mac xid width .offer offer p →
      Course mac xid width .sendRequest (some offer) (ds ++ [.took p])
  | requested {ds p offer} : Course mac xid width .sendRequest (some offer) ds →
      Solicits mac xid width (some offer) p →
      Course mac xid width .receiveAck (some offer) (ds ++ [.sent p])
  | unacknowledged {ds offer} (p) : Course mac xid width .receiveAck (some offer) ds →
      Course mac xid width .receiveAck (some offer) (ds ++ [.took p])
  | acknowledged {ds p offer ack} : Course mac xid width .receiveAck (some offer) ds →
      Answers mac xid width .ack ack p →
      Course mac xid width .idle (some offer) (ds ++ [.took p])

/-- An exchange as it is seen: its number, and what the client did. -/
structure Exchange where
  xid : UInt32
  deeds : List Deed := []
  deriving Repr, DecidableEq

/-- The exchange after more messages left and then others were taken. -/
def Exchange.add (e : Exchange) (sent taken : List UserPacket) : Exchange :=
  { e with deeds := e.deeds ++ (sent.map .sent ++ taken.map .took) }

/-- The messages that left, in order. -/
def Exchange.messages (e : Exchange) : List UserPacket :=
  e.deeds.filterMap fun | .sent p => some p | .took _ => none

/-- What an exchange sends is nothing, a discovery, or a discovery and a
request, each with its number. -/
def Exchange.Orderly (mac : MacAddress) (width : Nat) (e : Exchange) : Prop :=
  e.messages = [] ∨
  (∃ d, e.messages = [d] ∧ Solicits mac e.xid width none d) ∨
  ∃ d q offer, e.messages = [d, q] ∧ Solicits mac e.xid width none d ∧
    Solicits mac e.xid width (some offer) q

section Course

variable {mac : MacAddress} {xid : UInt32} {width : Nat} {phase : Phase} {offer : Option Reply}
  {ds : List Deed}

theorem messages_append (xid : UInt32) (ds ds' : List Deed) :
    Exchange.messages ⟨xid, ds ++ ds'⟩ =
      Exchange.messages ⟨xid, ds⟩ ++ Exchange.messages ⟨xid, ds'⟩ :=
  List.filterMap_append

/-- What the course has sent when it has come to a phase. -/
theorem Course.messages (h : Course mac xid width phase offer ds) :
    let e : Exchange := ⟨xid, ds⟩
    match phase with
    | .sendDiscover => e.messages = []
    | .receiveOffer | .sendRequest => ∃ d, e.messages = [d] ∧ Solicits mac xid width none d
    | .receiveAck | .idle => ∃ d q offer, e.messages = [d, q] ∧
        Solicits mac xid width none d ∧ Solicits mac xid width (some offer) q := by
  induction h with
  | begun => rfl
  | discovered _ hp ih => exact ⟨_, by rw [messages_append, ih]; rfl, hp⟩
  | unoffered p _ ih =>
    obtain ⟨d, hd, hsolicits⟩ := ih
    exact ⟨d, by rw [messages_append, hd]; rfl, hsolicits⟩
  | offered _ _ ih =>
    obtain ⟨d, hd, hsolicits⟩ := ih
    exact ⟨d, by rw [messages_append, hd]; rfl, hsolicits⟩
  | requested _ hq ih =>
    obtain ⟨d, hd, hsolicits⟩ := ih
    exact ⟨d, _, _, by rw [messages_append, hd]; rfl, hsolicits, hq⟩
  | unacknowledged p _ ih =>
    obtain ⟨d, q, offer, hd, hsolicits⟩ := ih
    exact ⟨d, q, offer, by rw [messages_append, hd]; rfl, hsolicits⟩
  | acknowledged _ _ ih =>
    obtain ⟨d, q, offer, hd, hsolicits⟩ := ih
    exact ⟨d, q, offer, by rw [messages_append, hd]; rfl, hsolicits⟩

theorem Course.orderly (h : Course mac xid width phase offer ds) :
    Exchange.Orderly mac width ⟨xid, ds⟩ := by
  have hmessages := h.messages
  cases phase with
  | sendDiscover => exact .inl hmessages
  | receiveOffer => exact .inr (.inl hmessages)
  | sendRequest => exact .inr (.inl hmessages)
  | receiveAck => exact .inr (.inr hmessages)
  | idle => exact .inr (.inr hmessages)

/-- Without the latest message it has still sent what it may. -/
theorem Exchange.orderly_of_sent {p : UserPacket}
    (h : Exchange.Orderly mac width ⟨xid, ds ++ [.sent p]⟩) : Orderly mac width ⟨xid, ds⟩ := by
  have hmessages : messages ⟨xid, ds ++ [.sent p]⟩ = messages ⟨xid, ds⟩ ++ [p] :=
    messages_append xid ds [.sent p]
  unfold Orderly at h ⊢
  rw [hmessages] at h
  obtain hnone | ⟨d, hone, -⟩ | ⟨d, q, offer, htwo, hd, -⟩ := h
  · simp at hnone
  · have hempty : messages ⟨xid, ds⟩ ++ [p] = [] ++ [d] := hone
    exact .inl (List.append_inj_left' hempty rfl)
  · have hdiscover : messages ⟨xid, ds⟩ ++ [p] = [d] ++ [q] := htwo
    exact .inr (.inl ⟨d, List.append_inj_left' hdiscover rfl, hd⟩)

/-- Before an offer is accepted there is none. -/
theorem Course.offer_none (h : Course mac xid width phase offer ds)
    (hphase : phase = .sendDiscover ∨ phase = .receiveOffer) : offer = none := by
  cases h <;> simp at hphase <;> rfl

/-- Only an accepted offer is requested. -/
theorem Course.offer_some (h : Course mac xid width phase offer ds)
    (hphase : phase = .sendRequest ∨ phase = .receiveAck) : ∃ reply, offer = some reply := by
  cases h <;> simp at hphase <;> exact ⟨_, rfl⟩

end Course

namespace Station

/-! ## §2. Transitions. -/

/-- All that a transition can do to a client that holds no message: the
messages that leave, and those that are taken. -/
inductive Proceeds (now : Nat) (s : Station) :
    Station → List UserPacket → List UserPacket → Prop where
  | gaveUp (stats) : s.client.phase ≠ .idle →
      Proceeds now s { s with client := { s.client with
        phase := .idle, lease := none, idleSince := some now, stats } } [] []
  | rested (stats) : s.client.phase = .idle →
      Proceeds now s { s with
        client := { s.client with stats }
        link := { s.link with inbound := { s.link.inbound with items := [] } } }
        [] s.link.inbound.items
  | began (stats) : s.client.phase = .idle →
      Proceeds now s { s with
        client := { s.client with
          phase := .sendDiscover, renewing := false, xid := s.client.xid + 1, started := some now
          stats }
        link := { s.link with inbound := { s.link.inbound with items := [] } } }
        [] s.link.inbound.items
  | solicited {accepted next sent heldOut outbound} (stats) :
      s.client.phase = .sendDiscover ∧ accepted = none ∧ next = .receiveOffer ∨
        s.client.phase = .sendRequest ∧ accepted = s.client.offer ∧ next = .receiveAck →
      sent ++ heldOut.toList = [s.client.compose accepted] →
      outbound.items = s.link.outbound.items ++ sent → outbound.closed = false →
      Proceeds now s { s with
        client := { s.client with phase := next, heldOut, stats }
        link := { s.link with outbound } } sent []
  | waited : s.client.phase = .receiveOffer ∨ s.client.phase = .receiveAck →
      Proceeds now s s [] []
  | refused {packet inbound} (stats) :
      s.client.phase = .receiveOffer ∨ s.client.phase = .receiveAck →
      s.link.inbound.items = packet :: inbound.items →
      Proceeds now s { s with
        client := { s.client with stats }
        link := { s.link with inbound } } [] [packet]
  | offered {packet inbound offer} (stats) : s.client.phase = .receiveOffer →
      s.link.inbound.items = packet :: inbound.items →
      Answers s.client.mac s.client.xid s.client.width .offer offer packet →
      Proceeds now s { s with
        client := { s.client with phase := .sendRequest, offer := some offer, stats }
        link := { s.link with inbound } } [] [packet]
  | bound {packet inbound offer ack lease} (stats) : s.client.phase = .receiveAck →
      s.link.inbound.items = packet :: inbound.items →
      Answers s.client.mac s.client.xid s.client.width .ack ack packet →
      s.client.offer = some offer → lease.ip = offer.ip →
      Proceeds now s {
        client := { s.client with
          phase := .idle, offer := some offer, lease := some lease, idleSince := some now, stats }
        link := { s.link with inbound }
        localIp := offer.ip } [] [packet]

variable {s t : Station} {now : Nat}

/-- A change of phase changes nothing else. -/
theorem state_advance (now : Nat) (s : Station) :
    (s.advance now).state = { (s.act now).state.1 with
      client := { (s.act now).state.1.client with phase := (s.act now).state.2 } } := by
  unfold advance
  dsimp only
  by_cases hsame : (s.act now).state.2 = (s.act now).state.1.client.phase
  · rw [if_pos hsame, hsame]
    rfl
  · rw [if_neg hsame]
    rfl

/-- Listening takes nothing, drops a message, or finds the reply it waits for. -/
theorem hear_cases (s : Station) (kind : Kind) :
    (s.link.inbound.items = [] ∧ (s.hear kind).state = (s, none)) ∨
    ∃ packet inbound stats, s.link.inbound.items = packet :: inbound.items ∧
      let t : Station := { s with
        client := { s.client with stats }, link := { s.link with inbound } }
      ((s.hear kind).state = (t, none) ∨
        ∃ reply, (s.hear kind).state = (t, some reply) ∧
          Answers s.client.mac s.client.xid s.client.width kind reply packet) := by
  unfold hear
  cases htake : s.link.inbound.take with
  | none => exact .inl ⟨Pipe.take_eq_none_iff.mp htake, rfl⟩
  | some taken =>
    obtain ⟨packet, inbound⟩ := taken
    refine .inr ?_
    dsimp only
    cases hreply : (Reply.read? s.client.mac s.client.xid s.client.width packet).filter
        (·.kind == kind) with
    | none => exact ⟨packet, inbound, _, (Pipe.take_eq_some htake).1, .inl rfl⟩
    | some reply =>
      obtain ⟨hread, hkind⟩ := Option.filter_eq_some_iff.mp hreply
      refine ⟨packet, inbound, _, (Pipe.take_eq_some htake).1, .inr ⟨reply, rfl, ?_⟩⟩
      rw [← beq_iff_eq.mp hkind]
      exact read?_answers hread

/-- A message that is sent leaves, or is held. -/
theorem send_solicits (hopen : s.link.outbound.closed = false) (packet : UserPacket) :
    ∃ sent heldOut outbound, s.send packet = { s with
        client := { s.client with heldOut }, link := { s.link with outbound } } ∧
      sent ++ heldOut.toList = [packet] ∧ outbound.items = s.link.outbound.items ++ sent ∧
      outbound.closed = false := by
  unfold send sendOrHold
  rw [flush_of_open hopen]
  by_cases hroom : s.link.outbound.hasRoom
  · rw [if_pos hroom]
    exact ⟨[packet], none, _, rfl, rfl, rfl, hopen⟩
  · rw [if_neg hroom]
    exact ⟨[], some packet, _, rfl, rfl, (List.append_nil _).symm, hopen⟩

/-- A transition does one of these. -/
theorem proceed_proceeds (now : Nat) (hopen : s.link.outbound.closed = false)
    (hoffer : s.client.phase = .receiveAck → s.client.offer ≠ none) :
    ∃ sent taken, s.Proceeds now (s.proceed now).state sent taken := by
  unfold proceed
  by_cases hoverdue : s.client.isOverdue now
  · rw [if_pos hoverdue]
    have hphase : s.client.phase ≠ .idle := by
      intro hidle
      rw [Client.isOverdue, hidle] at hoverdue
      cases hoverdue
    exact ⟨[], [], .gaveUp _ hphase⟩
  · rw [if_neg hoverdue, state_advance]
    unfold act
    cases hphase : s.client.phase with
    | idle =>
      have hall : (s.link.inbound.takeMany s.link.inbound.items.length).2 =
          { s.link.inbound with items := [] } := by
        unfold Pipe.takeMany
        rw [List.drop_length]
      refine ⟨[], s.link.inbound.items, ?_⟩
      unfold drain
      dsimp only [Outcome.map]
      rw [hall]
      split
      · exact .began _ hphase
      · rw [← hphase]
        exact .rested _ hphase
    | sendDiscover =>
      obtain ⟨sent, heldOut, outbound, hsend, hparts, hitems, hclosed⟩ :=
        send_solicits hopen (s.client.compose none)
      refine ⟨sent, [], ?_⟩
      dsimp only [Outcome.idle]
      rw [hsend]
      exact .solicited _ (.inl ⟨hphase, rfl, rfl⟩) hparts hitems hclosed
    | receiveOffer =>
      dsimp only
      obtain ⟨hempty, hheard⟩ | ⟨packet, inbound, stats, hitems, hheard | ⟨offer, hheard, hanswers⟩⟩ :=
        s.hear_cases .offer
      · rw [hheard]
        refine ⟨[], [], ?_⟩
        dsimp only [Outcome.map]
        rw [← hphase]
        exact .waited (.inl hphase)
      · rw [hheard]
        refine ⟨[], [packet], ?_⟩
        dsimp only [Outcome.map]
        rw [← hphase]
        exact .refused _ (.inl hphase) hitems
      · rw [hheard]
        exact ⟨[], [packet], .offered _ hphase hitems hanswers⟩
    | sendRequest =>
      obtain ⟨sent, heldOut, outbound, hsend, hparts, hitems, hclosed⟩ :=
        send_solicits hopen (s.client.compose s.client.offer)
      refine ⟨sent, [], ?_⟩
      dsimp only [Outcome.idle]
      rw [hsend]
      exact .solicited _ (.inr ⟨hphase, rfl, rfl⟩) hparts hitems hclosed
    | receiveAck =>
      dsimp only
      obtain ⟨offer, hoffer⟩ := Option.ne_none_iff_exists'.mp (hoffer hphase)
      obtain ⟨hempty, hheard⟩ | ⟨packet, inbound, stats, hitems, hheard | ⟨ack, hheard, hanswers⟩⟩ :=
        s.hear_cases .ack
      · rw [hheard]
        refine ⟨[], [], ?_⟩
        dsimp only [Outcome.map]
        rw [← hphase]
        exact .waited (.inr hphase)
      · rw [hheard]
        refine ⟨[], [packet], ?_⟩
        dsimp only [Outcome.map]
        rw [← hphase]
        exact .refused _ (.inr hphase) hitems
      · rw [hheard]
        dsimp only
        rw [hoffer]
        exact ⟨[], [packet], .bound _ hphase hitems hanswers hoffer rfl⟩

end Station

/-! ## §3. The place of a client in its exchange. -/

/-- A client has come as far as its exchange, unless it gave up or is done; a
message that it holds counts as sent. -/
structure Client.Stands (c : Client) (e : Exchange) : Prop where
  xid : c.xid = e.xid
  course : ∃ phase offer,
    Course c.mac e.xid c.width phase offer (e.deeds ++ c.heldOut.toList.map .sent) ∧
      (c.phase ≠ .idle → c.phase = phase ∧ (offer ≠ none → c.offer = offer))
  held : c.heldOut ≠ none → c.phase = .receiveOffer ∨ c.phase = .receiveAck

/-- What a step from `s` to `t` makes of an exchange, and of the address. -/
structure Station.Follows (e : Exchange) (s t : Station) (sent taken : List UserPacket) : Prop where
  mac : t.client.mac = s.client.mac
  width : t.client.width = s.client.width
  opened : t.link.outbound.closed = false
  outbound : t.link.outbound.items = s.link.outbound.items ++ sent
  inbound : s.link.inbound.items = taken ++ t.link.inbound.items
  /-- The exchange goes on. -/
  busy : s.client.phase ≠ .idle → t.client.Stands (e.add sent taken)
  /-- Outside of an exchange nothing is sent; a new one has the next number. -/
  resting : s.client.phase = .idle → sent = [] ∧
    (t.client.phase = .idle → t.client.Stands e) ∧
    (t.client.phase ≠ .idle → t.client.xid = s.client.xid + 1 ∧ t.client.Stands ⟨t.client.xid, []⟩)
  /-- The address is that of an offer that was acknowledged, if it changes. -/
  address :
    t.localIp = s.localIp ∧ (t.client.lease = s.client.lease ∨ t.client.lease = none) ∨
    s.client.phase = .receiveAck ∧ t.client.phase = .idle ∧ ∃ offer lease,
      Course s.client.mac e.xid s.client.width .idle (some offer) (e.add sent taken).deeds ∧
      t.localIp = offer.ip ∧ t.client.lease = some lease ∧ lease.ip = offer.ip

section Exchange

variable {c : Client} {e : Exchange}

theorem Exchange.add_nil (e : Exchange) : e.add [] [] = e := by
  unfold add
  rw [List.map_nil, List.map_nil, List.append_nil, List.append_nil]

theorem Exchange.add_add (e : Exchange) (sent sent' taken : List UserPacket) :
    (e.add sent []).add sent' taken = e.add (sent ++ sent') taken := by
  unfold add
  simp only [List.map_nil, List.append_nil, List.map_append, List.append_assoc]

/-- So a client stands that holds nothing. -/
theorem Client.Stands.of_course {phase : Phase} {offer : Option Reply} (hxid : c.xid = e.xid)
    (hheld : c.heldOut = none) (hcourse : Course c.mac e.xid c.width phase offer e.deeds)
    (hphase : c.phase ≠ .idle → c.phase = phase ∧ (offer ≠ none → c.offer = offer)) :
    c.Stands e := by
  refine ⟨hxid, ⟨phase, offer, ?_, hphase⟩, fun hne => absurd hheld hne⟩
  rw [hheld]
  simpa using hcourse

/-- A client that holds nothing has done all of its course. -/
theorem Client.Stands.unheld (hs : c.Stands e) (hheld : c.heldOut = none) :
    ∃ phase offer, Course c.mac e.xid c.width phase offer e.deeds ∧
      (c.phase ≠ .idle → c.phase = phase ∧ (offer ≠ none → c.offer = offer)) := by
  have hcourse := hs.course
  rw [hheld] at hcourse
  simpa only [Option.toList_none, List.map_nil, List.append_nil] using hcourse

/-- In an exchange the course has come to the phase of the client. -/
theorem Client.Stands.here (hs : c.Stands e) (hheld : c.heldOut = none) {phase : Phase}
    (hphase : c.phase = phase) (hbusy : phase ≠ .idle) :
    ∃ offer, Course c.mac e.xid c.width phase offer e.deeds ∧
      (offer ≠ none → c.offer = offer) := by
  obtain ⟨reached, offer, hcourse, hreached⟩ := hs.unheld hheld
  obtain ⟨rfl, hoffer⟩ := hreached (hphase ▸ hbusy)
  exact ⟨offer, hphase ▸ hcourse, hoffer⟩

end Exchange

namespace Station

/-! ## §4. Steps. -/

variable {s t : Station} {now : Nat} {e : Exchange} {sent taken : List UserPacket}

/-- A message is written for the exchange: it leaves, or is held. -/
theorem stands_solicited (hs : s.client.Stands e) {phase : Phase} {offer : Option Reply}
    {packet : UserPacket} {heldOut : Option UserPacket} {stats : Stats}
    (hparts : sent ++ heldOut.toList = [packet])
    (hphase : phase = .receiveOffer ∨ phase = .receiveAck)
    (hoffer : offer ≠ none → s.client.offer = offer)
    (hcourse : Course s.client.mac e.xid s.client.width phase offer (e.deeds ++ [.sent packet])) :
    { s.client with phase, heldOut, stats }.Stands (e.add sent []) := by
  refine ⟨hs.xid, ⟨phase, offer, ?_, fun _ => ⟨rfl, hoffer⟩⟩, fun _ => hphase⟩
  have hdeeds : (e.add sent []).deeds ++ heldOut.toList.map .sent = e.deeds ++ [.sent packet] := by
    show e.deeds ++ (sent.map .sent ++ []) ++ heldOut.toList.map .sent = _
    rw [List.append_nil, List.append_assoc, ← List.map_append, hparts]
    rfl
  show Course _ _ _ _ _ ((e.add sent []).deeds ++ heldOut.toList.map .sent)
  rwa [hdeeds]

/-- A transition continues the course. -/
theorem Proceeds.follows (hw : 0 < s.client.width) (h8 : s.client.width ≤ 8)
    (hopen : s.link.outbound.closed = false) (hs : s.client.Stands e)
    (hheld : s.client.heldOut = none) (h : s.Proceeds now t sent taken) :
    Follows e s t sent taken := by
  cases h with
  | gaveUp stats hphase =>
    obtain ⟨phase, offer, hcourse, -⟩ := hs.unheld hheld
    have hover : { s.client with
        phase := .idle, lease := none, idleSince := some now, stats }.Stands e :=
      .of_course hs.xid hheld hcourse fun hne => absurd rfl hne
    exact ⟨rfl, rfl, hopen, (List.append_nil _).symm, rfl, fun _ => e.add_nil.symm ▸ hover,
      fun hidle => absurd hidle hphase, .inl ⟨rfl, .inr rfl⟩⟩
  | rested stats hphase =>
    obtain ⟨phase, offer, hcourse, hreached⟩ := hs.unheld hheld
    exact ⟨rfl, rfl, hopen, (List.append_nil _).symm, (List.append_nil _).symm,
      fun hbusy => absurd hphase hbusy,
      fun _ => ⟨rfl, fun _ => .of_course hs.xid hheld hcourse hreached,
        fun hbusy => absurd hphase hbusy⟩,
      .inl ⟨rfl, .inl rfl⟩⟩
  | began stats hphase =>
    exact ⟨rfl, rfl, hopen, (List.append_nil _).symm, (List.append_nil _).symm,
      fun hbusy => absurd hphase hbusy,
      fun _ => ⟨rfl, fun hidle => (by cases hidle),
        fun _ => ⟨rfl, .of_course rfl hheld .begun fun _ => ⟨rfl, fun hne => absurd rfl hne⟩⟩⟩,
      .inl ⟨rfl, .inl rfl⟩⟩
  | @solicited accepted next sent heldOut outbound stats hphase hparts hitems hclosed =>
    have hbusy : s.client.phase ≠ .idle := by
      obtain ⟨hphase, -⟩ | ⟨hphase, -⟩ := hphase <;> rw [hphase] <;> decide
    have hstands : { s.client with phase := next, heldOut, stats }.Stands (e.add sent []) := by
      have hsolicits := compose_solicits hw h8 accepted
      rw [hs.xid] at hsolicits
      obtain ⟨hphase, rfl, rfl⟩ | ⟨hphase, rfl, rfl⟩ := hphase
      · obtain ⟨offer, hcourse, -⟩ := hs.here hheld hphase (by decide)
        obtain rfl := hcourse.offer_none (.inl rfl)
        exact stands_solicited hs hparts (.inl rfl) (fun hne => absurd rfl hne)
          (hcourse.discovered hsolicits)
      · obtain ⟨offer, hcourse, hoffer⟩ := hs.here hheld hphase (by decide)
        obtain ⟨reply, rfl⟩ := hcourse.offer_some (.inl rfl)
        have hoffer := hoffer (by simp)
        rw [hoffer] at hsolicits
        exact stands_solicited hs hparts (.inr rfl) (fun _ => hoffer)
          (hcourse.requested (hoffer ▸ hsolicits))
    exact ⟨rfl, rfl, hclosed, hitems, rfl, fun _ => hstands, fun hidle => absurd hidle hbusy,
      .inl ⟨rfl, .inl rfl⟩⟩
  | waited hphase =>
    have hbusy : s.client.phase ≠ .idle := by
      obtain hphase | hphase := hphase <;> rw [hphase] <;> decide
    exact ⟨rfl, rfl, hopen, (List.append_nil _).symm, rfl, fun _ => e.add_nil.symm ▸ hs,
      fun hidle => absurd hidle hbusy, .inl ⟨rfl, .inl rfl⟩⟩
  | @refused packet inbound stats hphase hitems =>
    have hbusy : s.client.phase ≠ .idle := by
      obtain hphase | hphase := hphase <;> rw [hphase] <;> decide
    have hstands : { s.client with stats }.Stands (e.add [] [packet]) := by
      obtain hphase | hphase := hphase
      · obtain ⟨offer, hcourse, hoffer⟩ := hs.here hheld hphase (by decide)
        obtain rfl := hcourse.offer_none (.inr rfl)
        exact .of_course hs.xid hheld (hcourse.unoffered packet) fun _ => ⟨hphase, hoffer⟩
      · obtain ⟨offer, hcourse, hoffer⟩ := hs.here hheld hphase (by decide)
        obtain ⟨reply, rfl⟩ := hcourse.offer_some (.inr rfl)
        exact .of_course hs.xid hheld (hcourse.unacknowledged packet) fun _ => ⟨hphase, hoffer⟩
    exact ⟨rfl, rfl, hopen, (List.append_nil _).symm, hitems, fun _ => hstands,
      fun hidle => absurd hidle hbusy, .inl ⟨rfl, .inl rfl⟩⟩
  | @offered packet inbound offer stats hphase hitems hanswers =>
    have hbusy : s.client.phase ≠ .idle := by rw [hphase]; decide
    obtain ⟨before, hcourse, -⟩ := hs.here hheld hphase (by decide)
    obtain rfl := hcourse.offer_none (.inr rfl)
    rw [hs.xid] at hanswers
    have hstands : { s.client with phase := .sendRequest, offer := some offer, stats }.Stands
        (e.add [] [packet]) :=
      .of_course hs.xid hheld (hcourse.offered hanswers) fun _ => ⟨rfl, fun _ => rfl⟩
    exact ⟨rfl, rfl, hopen, (List.append_nil _).symm, hitems, fun _ => hstands,
      fun hidle => absurd hidle hbusy, .inl ⟨rfl, .inl rfl⟩⟩
  | @bound packet inbound offer ack lease stats hphase hitems hanswers hoffer hlease =>
    have hbusy : s.client.phase ≠ .idle := by rw [hphase]; decide
    obtain ⟨accepted, hcourse, haccepted⟩ := hs.here hheld hphase (by decide)
    obtain ⟨reply, rfl⟩ := hcourse.offer_some (.inr rfl)
    -- the offer that the client keeps is the one of this exchange
    obtain rfl : offer = reply :=
      Option.some.inj (hoffer.symm.trans (haccepted (by simp)))
    rw [hs.xid] at hanswers
    have hend := hcourse.acknowledged hanswers
    have hstands : { s.client with
        phase := .idle, offer := some offer, lease := some lease, idleSince := some now
        stats }.Stands (e.add [] [packet]) :=
      .of_course hs.xid hheld hend fun hne => absurd rfl hne
    exact ⟨rfl, rfl, hopen, (List.append_nil _).symm, hitems, fun _ => hstands,
      fun hidle => absurd hidle hbusy, .inr ⟨hphase, rfl, offer, lease, hend, rfl, rfl, hlease⟩⟩

/-- A client that holds nothing makes one transition. -/
theorem proceed_follows (hw : 0 < s.client.width) (h8 : s.client.width ≤ 8)
    (hopen : s.link.outbound.closed = false) (hs : s.client.Stands e)
    (hheld : s.client.heldOut = none) (now : Nat) :
    ∃ sent taken, Follows e s (s.proceed now).state sent taken := by
  have hoffer : s.client.phase = .receiveAck → s.client.offer ≠ none := by
    intro hphase
    obtain ⟨offer, hcourse, hoffer⟩ := hs.here hheld hphase (by decide)
    obtain ⟨reply, rfl⟩ := hcourse.offer_some (.inr rfl)
    rw [hoffer (by simp)]
    simp
  obtain ⟨sent, taken, hproceeds⟩ := proceed_proceeds now hopen hoffer
  exact ⟨sent, taken, hproceeds.follows hw h8 hopen hs hheld⟩

/-- A step continues the course of the exchange; while a message is held
nothing else happens. -/
theorem step_follows (hw : 0 < s.client.width) (h8 : s.client.width ≤ 8)
    (hopen : s.link.outbound.closed = false) (hs : s.client.Stands e) (now : Nat) :
    ∃ sent taken, Follows e s (s.step now).state sent taken := by
  unfold step
  cases hheld : s.client.heldOut with
  | none => exact proceed_follows hw h8 hopen hs hheld now
  | some packet =>
    have hbusy : s.client.phase ≠ .idle := by
      obtain hphase | hphase := hs.held (by rw [hheld]; simp) <;> rw [hphase] <;> decide
    dsimp only
    rw [flush_of_open hopen]
    by_cases hroom : s.link.outbound.hasRoom
    · rw [if_pos hroom]
      let u : Station := { s with
        client := { s.client with heldOut := none }
        link := { s.link with
          outbound := { s.link.outbound with items := s.link.outbound.items ++ [packet] } } }
      have hu : u.client.Stands (e.add [packet] []) := by
        obtain ⟨phase, offer, hcourse, hphase⟩ := hs.course
        rw [hheld] at hcourse
        exact .of_course hs.xid rfl hcourse hphase
      obtain ⟨sent, taken, h⟩ := proceed_follows (s := u) hw h8 hopen hu rfl now
      have hadd : (e.add [packet] []).add sent taken = e.add (packet :: sent) taken :=
        e.add_add [packet] sent taken
      refine ⟨packet :: sent, taken, h.mac, h.width, h.opened, ?_, h.inbound, ?_,
        fun hidle => absurd hidle hbusy, ?_⟩
      · show (u.proceed now).state.link.outbound.items = _
        rw [h.outbound]
        exact List.append_assoc _ [packet] sent
      · exact fun _ => hadd ▸ h.busy hbusy
      · exact hadd ▸ h.address
    · rw [if_neg hroom]
      exact ⟨[], [], rfl, rfl, hopen, (List.append_nil _).symm, rfl,
        fun _ => e.add_nil.symm ▸ hs, fun hidle => absurd hidle hbusy, .inl ⟨rfl, .inl rfl⟩⟩

end Station

/-! ## §5. Messages of no concern. -/

/-- Does a client in this phase wait for a reply? -/
def Phase.listens : Phase → Bool
  | .receiveOffer | .receiveAck => true
  | .idle | .sendDiscover | .sendRequest => false

/-- A message carries the number of an exchange. -/
def Carries (width : Nat) (xid : UInt32) (p : UserPacket) : Prop :=
  word ((p.bytes width).drop 4) = xid.toNat

/-- A message with another number is no reply. -/
theorem read?_of_not_carries {mac : MacAddress} {xid : UInt32} {width : Nat} {p : UserPacket}
    (hxid : ¬ Carries width xid p) : Reply.read? mac xid width p = none := by
  cases hread : Reply.read? mac xid width p with
  | none => rfl
  | some reply => exact absurd (read?_answers hread).begins.xid hxid

namespace Station

/-- A station but for what has arrived and what was counted. -/
def aside (s : Station) : Station :=
  { s with
    client := { s.client with stats := {} }
    link := { s.link with inbound := { s.link.inbound with items := [] } } }

/-- Listening to such a message, or to none, leaves all else as it is. -/
theorem hear_unaffected (s : Station) (kind : Kind)
    (hnone : ∀ p, s.link.inbound.items.head? = some p →
      ¬ Carries s.client.width s.client.xid p) :
    ∃ t, (s.hear kind).state = (t, none) ∧ t.aside = s.aside := by
  unfold hear
  cases htake : s.link.inbound.take with
  | none => exact ⟨s, rfl, rfl⟩
  | some taken =>
    obtain ⟨packet, inbound⟩ := taken
    obtain ⟨hitems, hdepth, hclosed⟩ := Pipe.take_eq_some htake
    have hrefused : Reply.read? s.client.mac s.client.xid s.client.width packet = none :=
      read?_of_not_carries (hnone packet (by rw [hitems]; rfl))
    dsimp only
    rw [hrefused]
    refine ⟨_, rfl, ?_⟩
    unfold aside
    dsimp only
    rw [hdepth, hclosed]

/-- Arriving messages have no effect but the counters if the client does not
listen, or if they carry another number. -/
theorem proceed_unaffected (s : Station) (now : Nat)
    (hnone : ∀ p, s.link.inbound.items.head? = some p → s.client.phase.listens = true →
      ¬ Carries s.client.width s.client.xid p) :
    (s.proceed now).state.aside = (s.aside.proceed now).state.aside := by
  have hoverdue : s.aside.client.isOverdue now = s.client.isOverdue now := rfl
  unfold proceed
  rw [hoverdue]
  split
  · rfl
  · rw [state_advance, state_advance]
    unfold act
    rw [show s.aside.client.phase = s.client.phase from rfl]
    cases hphase : s.client.phase with
    | idle =>
      -- all that arrived is dropped, if anything did
      have hwants : s.aside.drain.state.client.wantsExchange now =
          s.drain.state.client.wantsExchange now := rfl
      dsimp only [Outcome.map]
      rw [hwants]
      split <;> rfl
    | sendDiscover => rfl
    | receiveOffer =>
      obtain ⟨t, hheard, haside⟩ :=
        s.hear_unaffected .offer fun p hp => hnone p hp (by rw [hphase]; rfl)
      dsimp only
      rw [hheard, show (s.aside.hear .offer).state = (s.aside, none) from rfl]
      exact congrArg (fun u : Station =>
        { u with client := { u.client with phase := .receiveOffer } }) haside
    | sendRequest => rfl
    | receiveAck =>
      obtain ⟨t, hheard, haside⟩ :=
        s.hear_unaffected .ack fun p hp => hnone p hp (by rw [hphase]; rfl)
      dsimp only
      rw [hheard, show (s.aside.hear .ack).state = (s.aside, none) from rfl]
      exact congrArg (fun u : Station =>
        { u with client := { u.client with phase := .receiveAck } }) haside

/-- The same of a step. -/
theorem step_unaffected (s : Station) (now : Nat)
    (hnone : ∀ p, s.link.inbound.items.head? = some p → s.client.phase.listens = true →
      ¬ Carries s.client.width s.client.xid p) :
    (s.step now).state.aside = (s.aside.step now).state.aside := by
  unfold step
  rw [show s.aside.client.heldOut = s.client.heldOut from rfl,
    show s.aside.link.outbound = s.link.outbound from rfl]
  cases s.client.heldOut with
  | none => exact s.proceed_unaffected now hnone
  | some packet =>
    dsimp only
    split
    · rfl
    · next heldOut outbound _ =>
      let u : Station := { s with
        client := { s.client with heldOut }, link := { s.link with outbound } }
      exact u.proceed_unaffected now hnone

end Station

/-! ## §6. Runs. -/

/-- What can happen to a client. -/
inductive Event where
  /-- A message comes to the port; it is lost if there is no room. -/
  | deliver (p : UserPacket)
  /-- The port passes a message on. -/
  | collect
  | renew
  | step (now : Nat)
  deriving Repr, DecidableEq

/-- The messages that left between two states. -/
def Station.sentBy (s t : Station) : List UserPacket :=
  t.link.outbound.items.drop s.link.outbound.items.length

/-- The messages that were taken between two states. -/
def Station.takenBy (s t : Station) : List UserPacket :=
  s.link.inbound.items.take (s.link.inbound.items.length - t.link.inbound.items.length)

theorem Station.Follows.sentBy {e : Exchange} {s t : Station} {sent taken : List UserPacket}
    (h : Follows e s t sent taken) : s.sentBy t = sent := by
  unfold Station.sentBy
  rw [h.outbound, List.drop_left]

theorem Station.Follows.takenBy {e : Exchange} {s t : Station} {sent taken : List UserPacket}
    (h : Follows e s t sent taken) : s.takenBy t = taken := by
  unfold Station.takenBy
  rw [h.inbound, List.length_append, Nat.add_sub_cancel, List.take_left]

/-- A client, with all its exchanges.  What is seen before the first one counts
as one of number zero. -/
structure History where
  station : Station
  /-- The exchanges that are over, the oldest first. -/
  past : List Exchange := []
  /-- The latest exchange; it may be over too. -/
  current : Exchange := { xid := 0 }

namespace History

/-- What is seen of a step: messages that leave always, messages that are taken
only if the client was in an exchange, and the beginning of the next one. -/
def observe (h : History) (t : Station) : History :=
  let s := h.station
  if s.client.phase = .idle then
    let current := h.current.add (s.sentBy t) []
    if t.client.phase = .idle then { h with station := t, current }
    else { station := t, past := h.past ++ [current], current := { xid := t.client.xid } }
  else { h with station := t, current := h.current.add (s.sentBy t) (s.takenBy t) }

@[simp] theorem station_observe (h : History) (t : Station) : (h.observe t).station = t := by
  unfold observe
  dsimp only
  split_ifs <;> rfl

/-- What one event does. -/
def next (h : History) (event : Event) : History :=
  let s := h.station
  match event with
  | .deliver p =>
    let inbound := (s.link.inbound.offer p).2
    { h with station := { s with link := { s.link with inbound } } }
  | .collect =>
    match s.link.outbound.take with
    | none => h
    | some (_, outbound) => { h with station := { s with link := { s.link with outbound } } }
  | .renew => { h with station := { s with client := s.client.renew } }
  | .step now => h.observe (s.step now).state

/-- A run from a station. -/
def run (s : Station) (events : List Event) : History := events.foldl next { station := s }

/-- All exchanges, the oldest first. -/
def exchanges (h : History) : List Exchange := h.past ++ [h.current]

/-- Each exchange follows the course, and the client stands in the latest one. -/
structure Sound (mac : MacAddress) (width : Nat) (h : History) : Prop where
  own : h.station.client.mac = mac
  lanes : h.station.client.width = width
  opened : h.station.link.outbound.closed = false
  stands : h.station.client.Stands h.current
  numbered : ∀ i e, h.exchanges[i]? = some e → e.xid = UInt32.ofNat i
  first : h.exchanges.head? = some { xid := 0 }
  before : h.past = [] → h.station.client.phase = .idle
  orderly : ∀ e ∈ h.past, e.Orderly mac width
  leased : ∀ lease, h.station.client.lease = some lease → h.station.localIp = lease.ip

variable {mac : MacAddress} {width : Nat} {h : History}

/-- The latest exchange comes after all that are over. -/
theorem getElem?_concat {past : List Exchange} {current e : Exchange} {i : Nat} :
    (past ++ [current])[i]? = some e ↔
      past[i]? = some e ∨ i = past.length ∧ current = e := by
  obtain hlt | rfl | hgt := Nat.lt_trichotomy i past.length
  · rw [List.getElem?_append_left hlt]
    simp [Nat.ne_of_lt hlt]
  · simp
  · rw [List.getElem?_eq_none (by simp; omega), List.getElem?_eq_none (Nat.le_of_lt hgt)]
    simp [Nat.ne_of_gt hgt]

/-- The latest exchange sends what it may, also if a message of it is held. -/
theorem Sound.orderly_current (hs : h.Sound mac width) : h.current.Orderly mac width := by
  obtain ⟨phase, offer, hcourse, -⟩ := hs.stands.course
  rw [hs.own, hs.lanes] at hcourse
  have horderly := hcourse.orderly
  cases hheld : h.station.client.heldOut with
  | none =>
    rw [hheld] at horderly
    simpa using horderly
  | some packet =>
    rw [hheld] at horderly
    exact Exchange.orderly_of_sent horderly

/-- An event that keeps the client and what it has sent. -/
theorem Sound.of_same (hs : h.Sound mac width) {s : Station}
    (hclient : s.client = h.station.client) (hopen : s.link.outbound.closed = false)
    (hip : s.localIp = h.station.localIp) : { h with station := s }.Sound mac width where
  own := hclient ▸ hs.own
  lanes := hclient ▸ hs.lanes
  opened := hopen
  stands := hclient ▸ hs.stands
  numbered := hs.numbered
  first := hs.first
  before := hclient ▸ hs.before
  orderly := hs.orderly
  leased := by
    show ∀ lease, s.client.lease = some lease → s.localIp = lease.ip
    rw [hclient, hip]
    exact hs.leased

/-- A step is seen as it was made. -/
theorem Sound.observe (hs : h.Sound mac width) {t : Station} {sent taken : List UserPacket}
    (hf : Station.Follows h.current h.station t sent taken) : (h.observe t).Sound mac width := by
  have hleased : ∀ lease, t.client.lease = some lease → t.localIp = lease.ip := by
    intro lease hlease
    obtain ⟨hip, hkept | hnone⟩ | ⟨-, -, offer, bound, -, hip, hbound, hsame⟩ := hf.address
    · rw [hip]
      exact hs.leased lease (hkept ▸ hlease)
    · rw [hnone] at hlease
      cases hlease
    · obtain rfl : bound = lease := Option.some.inj (hbound.symm.trans hlease)
      rw [hip, hsame]
  unfold History.observe
  dsimp only
  rw [hf.sentBy, hf.takenBy]
  by_cases hidle : h.station.client.phase = .idle
  · obtain ⟨rfl, hrest, hbegin⟩ := hf.resting hidle
    rw [if_pos hidle, h.current.add_nil]
    by_cases hstill : t.client.phase = .idle
    · rw [if_pos hstill]
      exact ⟨hf.mac.trans hs.own, hf.width.trans hs.lanes, hf.opened, hrest hstill, hs.numbered,
        hs.first, fun _ => hstill, hs.orderly, hleased⟩
    · rw [if_neg hstill]
      obtain ⟨hxid, hstands⟩ := hbegin hstill
      refine ⟨hf.mac.trans hs.own, hf.width.trans hs.lanes, hf.opened, hstands, ?_, ?_, ?_, ?_,
        hleased⟩
      · intro i e he
        obtain hpast | ⟨rfl, rfl⟩ := getElem?_concat.mp he
        · exact hs.numbered i e hpast
        · have hlatest := hs.numbered h.past.length h.current (getElem?_concat.mpr (.inr ⟨rfl, rfl⟩))
          show t.client.xid = _
          rw [hxid, hs.stands.xid, hlatest, List.length_append]
          exact (UInt32.ofNat_add h.past.length 1).symm
      · show ((h.past ++ [h.current]) ++ [_]).head? = _
        rw [List.head?_append, show (h.past ++ [h.current]).head? = _ from hs.first]
        rfl
      · intro hnone
        simp at hnone
      · intro e he
        obtain hpast | hlatest := List.mem_append.mp he
        · exact hs.orderly e hpast
        · rw [List.mem_singleton.mp hlatest]
          exact hs.orderly_current
  · rw [if_neg hidle]
    have hpast : h.past ≠ [] := fun hnone => hidle (hs.before hnone)
    refine ⟨hf.mac.trans hs.own, hf.width.trans hs.lanes, hf.opened, hf.busy hidle, ?_, ?_,
      fun hnone => absurd hnone hpast, hs.orderly, hleased⟩
    · intro i e he
      obtain hpast | ⟨rfl, rfl⟩ := getElem?_concat.mp he
      · exact hs.numbered i e (getElem?_concat.mpr (.inl hpast))
      · exact hs.numbered _ h.current (getElem?_concat.mpr (.inr ⟨rfl, rfl⟩))
    · have hfirst := hs.first
      obtain ⟨e, rest, hcons⟩ := List.exists_cons_of_ne_nil hpast
      unfold exchanges at hfirst ⊢
      rw [hcons] at hfirst ⊢
      exact hfirst

theorem Sound.next (hw : 0 < width) (h8 : width ≤ 8) (hs : h.Sound mac width) (event : Event) :
    (h.next event).Sound mac width := by
  cases event with
  | deliver p => exact hs.of_same rfl hs.opened rfl
  | collect =>
    unfold History.next
    dsimp only
    split
    · exact hs
    · next p outbound htake =>
      exact hs.of_same rfl ((Pipe.take_eq_some htake).2.2.trans hs.opened) rfl
  | renew =>
    -- only the next exchange is concerned
    have hstands : h.station.client.renew.Stands h.current :=
      ⟨hs.stands.xid, hs.stands.course, hs.stands.held⟩
    exact { hs with stands := hstands }
  | step now =>
    obtain ⟨sent, taken, hf⟩ :=
      Station.step_follows (hs.lanes ▸ hw) (hs.lanes ▸ h8) hs.opened hs.stands now
    exact hs.observe hf

/-- A client that has not begun. -/
theorem sound_make {timeout retry : Nat} {client : Client} (depth : Nat) (localIp : Ipv4)
    (hmake : Client.make? mac width timeout retry = .ok client) :
    0 < width ∧ width ≤ 8 ∧
      ({ station := ⟨client, Link.make depth, localIp⟩ } : History).Sound mac width := by
  unfold Client.make? at hmake
  split at hmake
  · next hwidth =>
    obtain rfl := (Except.ok.inj hmake).symm
    refine ⟨by rw [hwidth]; decide, by rw [hwidth]; decide, {
      own := rfl, lanes := rfl, opened := rfl
      stands := .of_course rfl rfl .begun fun hne => absurd rfl hne
      numbered := ?_, first := rfl, before := fun _ => rfl
      orderly := by simp
      leased := by simp }⟩
    intro i e he
    obtain hnone | ⟨rfl, rfl⟩ := getElem?_concat.mp he
    · cases hnone
    · rfl
  · cases hmake

/-- Over a run each exchange follows the course. -/
theorem run_sound (hw : 0 < width) (h8 : width ≤ 8) {s : Station}
    (hs : ({ station := s } : History).Sound mac width) (events : List Event) :
    (run s events).Sound mac width := by
  suffices h : ∀ h : History, h.Sound mac width → (events.foldl History.next h).Sound mac width from
    h _ hs
  induction events with
  | nil => exact fun h hs => hs
  | cons event events ih => exact fun h hs => ih _ (hs.next hw h8 event)

/-! ## §7. What is bound. -/

/-- What is seen of a client, whatever has happened to it. -/
structure Faithful (mac : MacAddress) (width : Nat) (h : History) : Prop where
  /-- A step that changes the address ends an exchange; the address is that of
  an offer that was taken, requested and acknowledged in this exchange. -/
  bound : ∀ now, let after := h.next (.step now)
    after.station.localIp ≠ h.station.localIp →
    h.station.client.phase = .receiveAck ∧ after.station.client.phase = .idle ∧ ∃ offer,
      Course mac h.current.xid width .idle (some offer) after.current.deeds ∧
      after.station.localIp = offer.ip
  /-- The leased address is the address of the board. -/
  leased : ∀ lease, h.station.client.lease = some lease → h.station.localIp = lease.ip
  /-- Each exchange sends a discovery and a request at most, with its number. -/
  orderly : ∀ e ∈ h.exchanges, e.Orderly mac width
  /-- Exchanges are numbered one after another. -/
  numbered : ∀ i e, h.exchanges[i]? = some e → e.xid = UInt32.ofNat i
  /-- Nothing is seen before the first one. -/
  first : h.exchanges.head? = some { xid := 0 }
  /-- The client has the number of the latest one. -/
  current : h.station.client.xid = h.current.xid
  /-- Messages with another number, and those that come while the client does
  not listen, have no effect but the counters. -/
  unaffected : ∀ now, (∀ p, h.station.link.inbound.items.head? = some p →
      h.station.client.phase.listens = true → ¬ Carries width h.station.client.xid p) →
    (h.station.step now).state.aside = (h.station.aside.step now).state.aside

/-- In every run of a client only what was offered, requested and acknowledged
in one exchange is bound. -/
theorem bound_as_offered {timeout retry depth : Nat} {client : Client} (localIp : Ipv4)
    (hmake : Client.make? mac width timeout retry = .ok client) (events : List Event) :
    (run ⟨client, Link.make depth, localIp⟩ events).Faithful mac width := by
  obtain ⟨hw, h8, hstart⟩ := sound_make depth localIp hmake
  have hs := run_sound hw h8 hstart events
  refine ⟨?_, hs.leased, ?_, hs.numbered, hs.first, hs.stands.xid, ?_⟩
  · intro now after hchanged
    obtain ⟨sent, taken, hf⟩ :=
      Station.step_follows (hs.lanes ▸ hw) (hs.lanes ▸ h8) hs.opened hs.stands now
    let h := run ⟨client, Link.make depth, localIp⟩ events
    have hafter : after = h.observe (h.station.step now).state := rfl
    rw [hafter, station_observe] at hchanged ⊢
    obtain ⟨hsame, -⟩ | ⟨hphase, hidle, offer, lease, hcourse, hip, -⟩ := hf.address
    · exact absurd hsame hchanged
    · have hcurrent : (h.observe (h.station.step now).state).current =
          h.current.add sent taken := by
        unfold observe
        dsimp only
        rw [hf.sentBy, hf.takenBy, if_neg (by rw [hphase]; decide)]
      rw [hs.own, hs.lanes] at hcourse
      exact ⟨hphase, hidle, offer, hcurrent ▸ hcourse, hip⟩
  · intro e he
    obtain hpast | hlatest := List.mem_append.mp he
    · exact hs.orderly e hpast
    · rw [List.mem_singleton.mp hlatest]
      exact hs.orderly_current
  · intro now hnone
    exact Station.step_unaffected _ now (by rw [hs.lanes]; exact hnone)

/-- Of two offers the first one is taken and requested; while the second one is
dropped and the clock runs backwards the exchange goes on, until the first
offer is acknowledged. -/
theorem bound_as_offered_first :
    let mac : MacAddress := .ofNat 7
    let reply (kind octet : UInt8) : UserPacket :=
      .ofBytes ⟨10, 0, 0, 1⟩ serverPort clientPort
        ([2, 1, 6, 0] ++ Bytes.ofNatBE 4 1 ++ List.replicate 8 0 ++ [10, 0, 0, octet] ++
          [10, 0, 0, 1] ++ List.replicate 4 0 ++ mac.octets ++ List.replicate 202 0 ++
          Bytes.ofNatBE 4 magicCookie ++ [53, 1, kind, 1, 4, 255, 255, 255, 0, 3, 4, 10, 0, 0, 1,
            51, 4, 0, 0, 1, 0, 255]) 4
    let events : List Event :=
      [.step 9, .step 8, .deliver (reply 2 5), .deliver (reply 2 6), .step 7, .step 6, .step 5,
       .deliver (reply 5 6)]
    ∃ client, Client.make? mac 4 10 10 = .ok client ∧
      let h := run ⟨client, Link.make 2, .unspecified⟩ events
      h.Faithful mac 4 ∧ h.station.localIp = .unspecified ∧
        (h.next (.step 4)).station.localIp = ⟨10, 0, 0, 5⟩ := by
  refine ⟨_, rfl, bound_as_offered _ rfl _, ?_⟩
  decide +kernel

end History
end NetBoard.Dhcp
