/-
  NetBoard.Proofs.Ip.Accounting
  ─────────────────────────────
  **EVERY DATAGRAM THAT IS TAKEN IS ACCOUNTED FOR.**

  The sender of the IPv4 layer holds one datagram at a time, in the stage it
  stands in.  Each transition takes a datagram, or an answer of the resolver,
  or sends a frame, and never two of these; so the datagrams that were taken
  fall into those that were too long, those whose station did not answer,
  those that were cut, and at most one that is still waiting.  The frames of
  those that were cut leave one datagram after the other.

  Main definitions:

      Layer.pieces    — the frames the layer makes of a datagram
      Turn            — all that a transition of the sender can do
      Ledger          — the layer, the datagrams it has taken, and the frames that left
      Tally           — the counters and the frames, in terms of the datagrams taken

  Main statements:

      step_turn                — a step is at most one turn of the sender
      Ledger.next_balanced     — every event keeps the ledger balanced
      Ledger.datagrams_accounted
                               — counters, frames and identifications after any run
-/
import NetBoard.Proofs.Ip.Fragments
import NetBoard.Proofs.Ip.NextHop

namespace NetBoard.Ip

open Ethernet (Frame)

/-! ## §1. The cut of a datagram. -/

namespace Layer

/-- The frames of a datagram for a station, as the stage of the layer makes them. -/
def pieces (l : Layer) (identification : UInt16) (sender : Ipv4) (packet : Packet)
    (target : MacAddress) : List Frame :=
  (packet.headers sender identification l.fragmentSize).map fun (values, chunk) =>
    l.frame target (l.packetizer.packetize values chunk).2

/-- The second layer cuts datagrams as the first one does. -/
structure CutsLike (l l' : Layer) : Prop where
  mac : l'.mac = l.mac
  size : l'.fragmentSize = l.fragmentSize
  stage : ∃ carry, l'.packetizer = { l.packetizer with carry }

theorem CutsLike.of_same {l l' : Layer} (hmac : l'.mac = l.mac)
    (hsize : l'.fragmentSize = l.fragmentSize) (hstage : l'.packetizer = l.packetizer) :
    l.CutsLike l' := ⟨hmac, hsize, l.packetizer.carry, hstage⟩

theorem CutsLike.trans {a b c : Layer} (hab : a.CutsLike b) (hbc : b.CutsLike c) :
    a.CutsLike c := by
  obtain ⟨carry, hb⟩ := hab.stage
  obtain ⟨carry', hc⟩ := hbc.stage
  exact ⟨hbc.mac.trans hab.mac, hbc.size.trans hab.size, carry', by rw [hc, hb]⟩

/-- What the stage holds from earlier datagrams is not seen. -/
theorem CutsLike.pieces {l l' : Layer} (h : l.CutsLike l') : l'.pieces = l.pieces := by
  obtain ⟨carry, hstage⟩ := h.stage
  funext identification sender packet target
  unfold Layer.pieces frame
  rw [h.mac, h.size, hstage]
  simp only [Packetizer.packetize_carry]

/-- The stage frames parts one after the other, the latest one first. -/
theorem foldl_pieces (l : Layer) (target : MacAddress) (parts : List (Fields × Bytes)) :
    ∀ (carry : Option UInt64) (done : List Frame), ∃ carry',
      parts.foldl (fun (p, done) (values, chunk) =>
        let (p, payload) := p.packetize values chunk
        (p, l.frame target payload :: done)) ({ l.packetizer with carry }, done) =
        ({ l.packetizer with carry := carry' },
          (parts.map fun (values, chunk) =>
            l.frame target (l.packetizer.packetize values chunk).2).reverse ++ done) := by
  induction parts with
  | nil =>
    intro carry done
    exact ⟨carry, rfl⟩
  | cons part parts ih =>
    intro carry done
    obtain ⟨values, chunk⟩ := part
    obtain ⟨kept, hkept⟩ := l.packetizer.packetize_keeps values chunk
    obtain ⟨carry', hrest⟩ := ih kept
      (l.frame target (l.packetizer.packetize values chunk).2 :: done)
    refine ⟨carry', ?_⟩
    rw [List.foldl_cons]
    dsimp only
    rw [l.packetizer.packetize_carry carry, hkept, hrest, List.map_cons, List.reverse_cons,
      List.append_assoc]
    rfl

/-- Cutting a datagram gives its pieces, and counts it. -/
theorem fragment_pieces (l : Layer) (localIp : Ipv4) (packet : Packet) (mac : MacAddress) :
    ∃ carry, (l.fragment localIp packet mac).1 =
      { l with
        packetizer := { l.packetizer with carry }
        sending := .send (l.pieces l.identification localIp packet mac)
        identification := l.identification + 1
        stats := { l.stats with txPackets := l.stats.txPackets + 1 } } := by
  obtain ⟨carry, hfold⟩ := l.foldl_pieces mac
    (packet.headers localIp l.identification l.fragmentSize) l.packetizer.carry []
  refine ⟨carry, ?_⟩
  unfold frame at hfold
  unfold fragment
  dsimp only at hfold ⊢
  rw [hfold, List.append_nil, List.reverse_reverse]
  rfl

/-- On a supported width the pieces are the frames written down without a stage. -/
theorem pieces_eq_frames {l : Layer} (hl : l.packetizer.Writes header) (identification : UInt16)
    (sender : Ipv4) (packet : Packet) (target : MacAddress) :
    l.pieces identification sender packet target =
      { l with identification }.frames sender packet target := by
  unfold pieces frames Packet.headers
  rw [List.map_map]
  apply List.map_congr_left
  rintro ⟨chunk, i⟩ -
  simp only [Function.comp_apply, hl.octets header_sound]
  rfl

end Layer

/-! ## §2. One turn of the sender. -/

/-- What the sender does is counted in. -/
structure Books where
  sending : Sending
  identification : UInt16
  packets : Nat
  unreachable : Nat
  oversize : Nat

/-- The books after a datagram has been cut. -/
def Books.send (b : Books) (pieces : UInt16 → List Frame) : Books :=
  { b with
    sending := .send (pieces b.identification)
    identification := b.identification + 1
    packets := b.packets + 1 }

/-- Is the station of a datagram being looked up? -/
def Sending.looksUp : Sending → Bool
  | .resolve _ | .wait _ => true
  | _ => false

/-- The frames that are still to be sent. -/
def Sending.queue : Sending → List Frame
  | .send frames => frames
  | _ => []

/-- **All that a transition of the sender can do**: the datagrams and answers
it takes, and the frames it sends. -/
inductive Turn (cut : UInt16 → Packet → MacAddress → List Frame) (b : Books) :
    List Packet → List Arp.Answer → List Frame → Books → Prop
  | rest : Turn cut b [] [] [] b
  | done : b.sending = .send [] → Turn cut b [] [] [] { b with sending := .idle }
  /-- The next datagram is too long. -/
  | oversize (packet : Packet) : b.sending = .idle → maxPayloadLength < packet.payload.length →
      Turn cut b [packet] [] [] { b with oversize := b.oversize + 1 }
  /-- It goes to a group of stations. -/
  | group (packet : Packet) (mac : MacAddress) : b.sending = .idle →
      ¬maxPayloadLength < packet.payload.length → packet.group? = some mac →
      Turn cut b [packet] [] [] (b.send fun identification => cut identification packet mac)
  /-- It goes to one station, which must be looked up. -/
  | single (packet : Packet) : b.sending = .idle → ¬maxPayloadLength < packet.payload.length →
      packet.group? = none → Turn cut b [packet] [] [] { b with sending := .resolve packet }
  | ask (packet : Packet) : b.sending = .resolve packet →
      Turn cut b [] [] [] { b with sending := .wait packet }
  | failed (packet : Packet) (answer : Arp.Answer) : b.sending = .wait packet → answer.mac = none →
      Turn cut b [] [answer] [] { b with sending := .idle, unreachable := b.unreachable + 1 }
  | found (packet : Packet) (answer : Arp.Answer) (mac : MacAddress) : b.sending = .wait packet →
      answer.mac = some mac →
      Turn cut b [] [answer] [] (b.send fun identification => cut identification packet mac)
  | emit (frame : Frame) (rest : List Frame) : b.sending = .send (frame :: rest) →
      Turn cut b [] [] [frame] { b with sending := if rest.isEmpty then .idle else .send rest }

namespace Station

/-- The state of the sender, as far as it is accounted. -/
def books (s : Station) : Books where
  sending := s.layer.sending
  identification := s.layer.identification
  packets := s.layer.stats.txPackets
  unreachable := s.layer.stats.targetUnreachable
  oversize := s.layer.stats.txOversize

/-- The frames on their way to the MAC, the oldest first. -/
def outgoing (s : Station) : List Frame := s.link.outbound.items ++ s.layer.heldOut.toList

/-- From one station to another these datagrams and answers have been taken,
and these frames have been sent. -/
structure Moved (s t : Station) (packets : List Packet) (answers : List Arp.Answer)
    (frames : List Frame) : Prop where
  outbox : s.layer.crossbar.outbox.items = packets ++ t.layer.crossbar.outbox.items
  answers : s.table.answers.items = answers ++ t.table.answers.items
  outgoing : s.link.outbound.closed = false → t.outgoing = s.outgoing ++ frames
  closed : t.link.outbound.closed = s.link.outbound.closed
  localIp : t.localIp = s.localIp
  cuts : s.layer.CutsLike t.layer

theorem Moved.trans {a b c : Station} {packets packets' : List Packet}
    {answers answers' : List Arp.Answer} {frames frames' : List Frame}
    (hab : a.Moved b packets answers frames) (hbc : b.Moved c packets' answers' frames') :
    a.Moved c (packets ++ packets') (answers ++ answers') (frames ++ frames') where
  outbox := by rw [hab.outbox, hbc.outbox, List.append_assoc]
  answers := by rw [hab.answers, hbc.answers, List.append_assoc]
  outgoing := fun hopen => by
    rw [hbc.outgoing (hab.closed.trans hopen), hab.outgoing hopen, List.append_assoc]
  closed := hbc.closed.trans hab.closed
  localIp := hbc.localIp.trans hab.localIp
  cuts := hab.cuts.trans hbc.cuts

/-- A part of the station moved that is not accounted. -/
theorem Moved.of_same {s t : Station}
    (houtbox : t.layer.crossbar.outbox = s.layer.crossbar.outbox)
    (hanswers : t.table.answers = s.table.answers)
    (hout : s.link.outbound.closed = false → t.outgoing = s.outgoing)
    (hclosed : t.link.outbound.closed = s.link.outbound.closed) (hip : t.localIp = s.localIp)
    (hcuts : s.layer.CutsLike t.layer) : s.Moved t [] [] [] :=
  ⟨by rw [houtbox]; rfl, by rw [hanswers]; rfl, fun hopen => by rw [hout hopen, List.append_nil],
    hclosed, hip, hcuts⟩

/-- All that is accounted of a station, but for its books. -/
structure Holdings where
  outbox : Pipe Packet
  answers : Pipe Arp.Answer
  outbound : Pipe Frame
  heldOut : Option Frame
  localIp : Ipv4
  mac : MacAddress
  size : Nat
  stage : Packetizer

def holdings (s : Station) : Holdings where
  outbox := s.layer.crossbar.outbox
  answers := s.table.answers
  outbound := s.link.outbound
  heldOut := s.layer.heldOut
  localIp := s.localIp
  mac := s.layer.mac
  size := s.layer.fragmentSize
  stage := s.layer.packetizer

/-- Nothing has moved that is accounted. -/
theorem Moved.of_holdings {s t : Station} (h : t.holdings = s.holdings) : s.Moved t [] [] [] := by
  have hout : t.outgoing = s.outgoing :=
    congrArg (fun held => held.outbound.items ++ held.heldOut.toList) h
  exact .of_same (congrArg Holdings.outbox h) (congrArg Holdings.answers h) (fun _ => hout)
    (congrArg (·.outbound.closed) h) (congrArg Holdings.localIp h)
    (.of_same (congrArg Holdings.mac h) (congrArg Holdings.size h) (congrArg Holdings.stage h))

variable {s : Station}

/-- Cutting a datagram for a station. -/
theorem startSending_books (packet : Packet) (mac : MacAddress) :
    (s.startSending packet mac).state.books =
        s.books.send (fun identification => s.layer.pieces identification s.localIp packet mac) ∧
      s.Moved (s.startSending packet mac).state [] [] [] := by
  obtain ⟨carry, hcut⟩ := s.layer.fragment_pieces s.localIp packet mac
  have hstate : (s.startSending packet mac).state =
      { s with layer := (s.layer.fragment s.localIp packet mac).1 } := rfl
  rw [hstate, hcut]
  exact ⟨rfl, .of_same rfl rfl (fun _ => rfl) rfl rfl ⟨rfl, rfl, carry, rfl⟩⟩

theorem begin_turn (hidle : s.layer.sending = .idle) :
    ∃ packets, Turn (fun i p mac => s.layer.pieces i s.localIp p mac) s.books packets [] []
        s.begin.state.books ∧ s.Moved s.begin.state packets [] [] := by
  unfold begin
  dsimp only
  cases htake : s.layer.crossbar.outbox.take with
  | none => exact ⟨[], .rest, .of_holdings rfl⟩
  | some taken =>
    obtain ⟨packet, outbox⟩ := taken
    have hitems := (Pipe.take_eq_some htake).1
    let t : Station :=
      { s with layer := { s.layer with crossbar := { s.layer.crossbar with outbox } } }
    have htaken : s.Moved t [packet] [] [] :=
      ⟨hitems, rfl, fun _ => (List.append_nil _).symm, rfl, rfl, .of_same rfl rfl rfl⟩
    have hsend : ∀ mac : MacAddress, ¬maxPayloadLength < packet.payload.length →
        packet.group? = some mac →
        Turn (fun i p mac => s.layer.pieces i s.localIp p mac) s.books [packet] [] []
            (t.startSending packet mac).state.books ∧
          s.Moved (t.startSending packet mac).state [packet] [] [] := by
      intro mac hfits hgroup
      obtain ⟨hbooks, hmoved⟩ := startSending_books (s := t) packet mac
      rw [hbooks]
      exact ⟨.group packet mac hidle hfits hgroup, htaken.trans hmoved⟩
    refine ⟨[packet], ?_⟩
    dsimp only
    by_cases hlong : maxPayloadLength < packet.payload.length
    · rw [if_pos hlong]
      exact ⟨.oversize packet hidle hlong, htaken.trans (.of_holdings rfl)⟩
    · rw [if_neg hlong]
      by_cases hbroadcast : packet.ip.isBroadcast = true
      · rw [if_pos hbroadcast]
        exact hsend .broadcast hlong (if_pos hbroadcast)
      · rw [if_neg hbroadcast]
        by_cases hmulticast : packet.ip.isMulticast = true
        · rw [if_pos hmulticast]
          refine hsend packet.ip.multicastMac hlong ?_
          rw [Packet.group?, if_neg hbroadcast, if_pos hmulticast]
        · rw [if_neg hmulticast]
          have hgroup : packet.group? = none := by
            rw [Packet.group?, if_neg hbroadcast, if_neg hmulticast]
          exact ⟨.single packet hidle hlong hgroup, htaken.trans (.of_holdings rfl)⟩

/-- A transition is one turn. -/
theorem advance_turn (hfree : s.layer.heldOut = none) :
    ∃ packets answers frames,
      Turn (fun i p mac => s.layer.pieces i s.localIp p mac) s.books packets answers frames
        s.advance.state.books ∧ s.Moved s.advance.state packets answers frames := by
  unfold advance
  cases hsending : s.layer.sending with
  | idle =>
    obtain ⟨packets, hturn, hmoved⟩ := begin_turn hsending
    exact ⟨packets, [], [], hturn, hmoved⟩
  | resolve packet =>
    dsimp only
    unfold resolve
    split
    · exact ⟨[], [], [], .rest, .of_holdings rfl⟩
    · exact ⟨[], [], [], .ask packet hsending, .of_holdings rfl⟩
  | wait packet =>
    dsimp only
    unfold await
    cases htake : s.table.answers.take with
    | none => exact ⟨[], [], [], .rest, .of_holdings rfl⟩
    | some taken =>
      obtain ⟨answer, answers⟩ := taken
      have hitems := (Pipe.take_eq_some htake).1
      let t : Station := { s with table := { s.table with answers } }
      have htaken : s.Moved t [] [answer] [] :=
        ⟨rfl, hitems, fun _ => (List.append_nil _).symm, rfl, rfl, .of_same rfl rfl rfl⟩
      refine ⟨[], [answer], [], ?_⟩
      dsimp only
      cases hmac : answer.mac with
      | none =>
        exact ⟨.failed packet answer hsending hmac, htaken.trans (.of_holdings rfl)⟩
      | some mac =>
        obtain ⟨hbooks, hmoved⟩ := startSending_books (s := t) packet mac
        dsimp only
        rw [hbooks]
        exact ⟨.found packet answer mac hsending hmac, htaken.trans hmoved⟩
  | send frames =>
    dsimp only
    unfold sendFragment
    cases frames with
    | nil => exact ⟨[], [], [], .done hsending, .of_holdings rfl⟩
    | cons frame rest =>
      refine ⟨[], [], [frame], .emit frame rest hsending, rfl, rfl, fun hopen => ?_, ?_, rfl,
        .of_same rfl rfl rfl⟩
      · obtain ⟨hitems, -⟩ := sendOrHold_items hopen frame
        unfold outgoing
        rw [hfree, Option.toList_none, List.append_nil]
        exact hitems
      · exact closed_flush (some frame) s.link.outbound

/-- Before its transition the sender passes on what it holds. -/
theorem poised_moved {u : Station} (hu : s.poised = some u) :
    u.books = s.books ∧ u.layer.heldOut = none ∧ s.arbitrated.Moved u [] [] [] := by
  unfold poised at hu
  dsimp only at hu
  cases hheld : s.arbitrated.layer.heldOut with
  | none =>
    rw [hheld] at hu
    cases hu
    exact ⟨rfl, hheld, .of_holdings rfl⟩
  | some frame =>
    rw [hheld] at hu
    dsimp only at hu
    have hitems := fun hopen : s.link.outbound.closed = false =>
      (flush_items hopen (some frame)).1
    have hclosed := closed_flush (some frame) s.link.outbound
    obtain hfull | ⟨outbound, hleft⟩ := flush_cases frame s.link.outbound
    · have hstuck : flush (some frame) s.arbitrated.link.outbound =
          (false, some frame, s.link.outbound) := hfull
      rw [hstuck] at hu
      cases hu
    · have hgone : flush (some frame) s.arbitrated.link.outbound = (true, none, outbound) := hleft
      rw [hgone] at hu
      cases hu
      rw [hleft] at hitems hclosed
      have hout : s.arbitrated.outgoing = s.link.outbound.items ++ [frame] := by
        unfold outgoing
        rw [hheld]
        rfl
      exact ⟨rfl, rfl, .of_same rfl rfl (fun hopen => (hitems hopen).trans hout.symm) hclosed rfl
        (.of_same rfl rfl rfl)⟩

/-- A defect of a received frame is not in the books. -/
theorem countDefect_books (d : Packet.Defect) (stats : Stats) :
    let counted := Layer.countDefect d stats
    counted.txPackets = stats.txPackets ∧ counted.targetUnreachable = stats.targetUnreachable ∧
      counted.txOversize = stats.txOversize := by
  cases d <;> exact ⟨rfl, rfl, rfl⟩

theorem receiveNext_moved (s : Station) :
    s.receiveNext.state.books = s.books ∧ s.Moved s.receiveNext.state [] [] [] := by
  unfold receiveNext
  cases s.link.inbound.take with
  | none => exact ⟨rfl, .of_holdings rfl⟩
  | some taken =>
    obtain ⟨frame, inbound⟩ := taken
    dsimp only
    unfold Layer.accept
    generalize Packet.read s.layer.depacketizer s.localIp s.layer.promiscuous frame.payload = read
    obtain ⟨depacketizer, result⟩ := read
    cases result with
    | ok packet => exact ⟨rfl, .of_holdings rfl⟩
    | error d =>
      obtain ⟨hpackets, hunreachable, hoversize⟩ := countDefect_books d s.layer.stats
      refine ⟨?_, .of_holdings rfl⟩
      unfold books
      dsimp only [Outcome.moved]
      rw [hpackets, hunreachable, hoversize]

/-- On reception nothing is taken or sent. -/
theorem receive_moved (s : Station) :
    s.receive.state.books = s.books ∧ s.Moved s.receive.state [] [] [] := by
  unfold receive
  cases s.layer.heldIn with
  | none => exact s.receiveNext_moved
  | some packet =>
    dsimp only
    obtain hfull | ⟨inbox, hleft⟩ := flush_cases packet s.layer.crossbar.inbox
    · rw [hfull]
      exact ⟨rfl, .of_holdings rfl⟩
    · rw [hleft]
      let t : Station := { s with
        layer := { s.layer with heldIn := none, crossbar := { s.layer.crossbar with inbox } } }
      have hflushed : s.Moved t [] [] [] := .of_holdings rfl
      obtain ⟨hbooks, hmoved⟩ := t.receiveNext_moved
      exact ⟨hbooks, hflushed.trans hmoved⟩

/-- **A step is at most one turn of the sender.** -/
theorem step_turn (s : Station) :
    ∃ packets answers frames,
      Turn (fun i p mac => s.layer.pieces i s.localIp p mac) s.books packets answers frames
        s.step.state.books ∧ s.arbitrated.Moved s.step.state packets answers frames := by
  rw [state_step]
  cases hpoised : s.poised with
  | none =>
    obtain ⟨hbooks, hmoved⟩ := s.arbitrated.receive_moved
    refine ⟨[], [], [], ?_, hmoved⟩
    show Turn _ s.books [] [] [] s.arbitrated.receive.state.books
    rw [hbooks]
    exact .rest
  | some u =>
    obtain ⟨hsame, hfree, hready⟩ := poised_moved hpoised
    obtain ⟨packets, answers, frames, hturn, hadvanced⟩ := advance_turn hfree
    obtain ⟨hbooks, hreceived⟩ := u.advance.state.receive_moved
    have hmoved := (hready.trans hadvanced).trans hreceived
    rw [List.append_nil, List.append_nil, List.append_nil] at hmoved
    refine ⟨packets, answers, frames, ?_, hmoved⟩
    show Turn _ s.books packets answers frames u.advance.state.receive.state.books
    have hcuts : u.layer.pieces = s.layer.pieces := hready.cuts.pieces
    have hip : u.localIp = s.localIp := hready.localIp
    rw [hcuts, hip, hsame] at hturn
    rw [hbooks]
    exact hturn

end Station

/-! ## §3. The ledger. -/

/-- What can happen to the layer. -/
inductive Ledger.Event where
  | step
  /-- The MAC hands over a received frame. -/
  | arrive (frame : Frame)
  /-- The MAC takes at most `n` frames. -/
  | collect (n : Nat)
  /-- The MAC takes no more. -/
  | hangUp
  /-- The resolver takes at most `n` lookups. -/
  | lookUp (n : Nat)
  /-- The resolver answers, to whatever question. -/
  | answer (answer : Arp.Answer)
  /-- The board gets another address. -/
  | readdress (ip : Ipv4)
  | register (protocol : UInt8)
  /-- The subscriber of a protocol offers a datagram. -/
  | send (protocol : UInt8) (packet : Packet)
  /-- The subscriber of a protocol takes at most `n` datagrams. -/
  | take (protocol : UInt8) (n : Nat)
  | abandon (protocol : UInt8)

namespace Station

/-- The station after the subscriber of a protocol has used its pipes. -/
def use (s : Station) (protocol : UInt8) (f : Link Packet → Link Packet) : Station :=
  match s.layer.crossbar.link? protocol.toUInt16 with
  | none => s
  | some link =>
    { s with layer := { s.layer with
      crossbar := s.layer.crossbar.setLink protocol.toUInt16 (f link) } }

/-- The station after an event. -/
def after (s : Station) : Ledger.Event → Station
  | .step => s.step.state
  | .arrive frame => { s with link := { s.link with inbound := (s.link.inbound.offer frame).2 } }
  | .collect n => { s with link := { s.link with outbound := (s.link.outbound.takeMany n).2 } }
  | .hangUp => { s with link := { s.link with outbound := s.link.outbound.close } }
  | .lookUp n => { s with table := { s.table with lookups := (s.table.lookups.takeMany n).2 } }
  | .answer answer =>
    { s with table := { s.table with answers := (s.table.answers.offer answer).2 } }
  | .readdress ip => { s with localIp := ip }
  | .register protocol =>
    match s.layer.register protocol with
    | .ok (layer, _) => { s with layer }
    | .error _ => s
  | .send protocol packet => s.use protocol fun link =>
    { link with outbound := (link.outbound.offer packet).2 }
  | .take protocol n => s.use protocol fun link =>
    { link with inbound := (link.inbound.takeMany n).2 }
  | .abandon protocol =>
    { s with layer := { s.layer with crossbar := s.layer.crossbar.abandon protocol.toUInt16 } }

/-- The frames the MAC takes of those on their way to it. -/
def collectedBy (s : Station) : Ledger.Event → List Frame
  | .collect n => (s.link.outbound.takeMany n).1
  | _ => []

end Station

/-- What has become of a datagram that was taken. -/
inductive Fate where
  | oversize
  | pending
  | unreachable
  /-- It was cut for this station. -/
  | sent (mac : MacAddress)
  deriving Repr, DecidableEq

/-- A datagram that was taken from the crossbar. -/
structure Entry where
  packet : Packet
  /-- The address of the board when the sender dealt with it last. -/
  sender : Ipv4
  /-- The answer of the resolver that was taken after it. -/
  answer : Option Arp.Answer := none
  deriving Repr, DecidableEq

/-- A datagram that is too long is dropped; one for a group is sent there, and
any other where the answer says. -/
def Entry.fate (e : Entry) : Fate :=
  if maxPayloadLength < e.packet.payload.length then .oversize
  else
    match e.packet.group?, e.answer with
    | some mac, _ => .sent mac
    | none, none => .pending
    | none, some answer => answer.mac.elim .unreachable .sent

/-- The station a datagram was sent to. -/
def Entry.target? (e : Entry) : Option MacAddress :=
  match e.fate with
  | .sent mac => some mac
  | _ => none

theorem Entry.target?_eq_some_iff {e : Entry} {mac : MacAddress} :
    e.target? = some mac ↔ e.fate = .sent mac := by
  unfold Entry.target?
  cases e.fate <;> simp

/-- Only a datagram that was cut was sent to a station. -/
theorem Entry.target?_eq_none {e : Entry} (h : ∀ mac, e.fate ≠ .sent mac) : e.target? = none :=
  Option.eq_none_iff_forall_ne_some.2 fun mac hmac => h mac (target?_eq_some_iff.1 hmac)

/-- The layer in a run, with what it took and what left it. -/
structure Ledger where
  station : Station
  /-- The datagrams its steps have taken from the crossbar, the oldest first. -/
  entries : List Entry := []
  /-- The frames the MAC has taken. -/
  collected : List Frame := []

namespace Ledger

/-- The entries after a step: an answer that was taken belongs to the latest
datagram, and a datagram that was taken is a new one. -/
def enter (entries : List Entry) (localIp : Ipv4) (packets : List Packet)
    (answers : List Arp.Answer) : List Entry :=
  let answered := answers.foldl (fun entries answer =>
    entries.dropLast ++ entries.getLast?.toList.map fun e =>
      { e with sender := localIp, answer := some answer }) entries
  answered ++ packets.map fun packet => { packet, sender := localIp }

/-- The ledger after an event. -/
def next (h : Ledger) (event : Event) : Ledger where
  station := h.station.after event
  entries :=
    match event with
    | .step => enter h.entries h.station.localIp
        (h.station.arbitrated.layer.crossbar.outbox.taken
          h.station.step.state.layer.crossbar.outbox)
        (h.station.table.answers.taken h.station.step.state.table.answers)
    | _ => h.entries
  collected := h.collected ++ h.station.collectedBy event

/-- The ledger after a run. -/
def run (h : Ledger) (events : List Event) : Ledger := events.foldl next h

/-- The datagrams that were cut, each with its station. -/
def sent (entries : List Entry) : List (Entry × MacAddress) :=
  entries.filterMap fun e => e.target?.map (e, ·)

/-- Their frames, one datagram after the other, numbered as they were taken. -/
def frames (cut : Nat → Entry → MacAddress → List Frame) (entries : List Entry) : List Frame :=
  (sent entries).zipIdx.flatMap fun ((e, mac), i) => cut i e mac

/-! ## §4. The balance. -/

/-- The counters of the layer are those of these datagrams, and so are the
frames it has made, as long as the MAC is there to take them. -/
structure Tally (cut : Nat → Entry → MacAddress → List Frame) (entries : List Entry)
    (there : Prop) (emitted : List Frame) (b : Books) : Prop where
  packets : b.packets = (sent entries).length
  identification : b.identification = UInt16.ofNat b.packets
  unreachable : b.unreachable = entries.countP (·.fate == .unreachable)
  oversize : b.oversize = entries.countP (·.fate == .oversize)
  frames : there → emitted ++ b.sending.queue = frames cut entries

/-- None of these datagrams is still to be sent. -/
def Settled (entries : List Entry) : Prop := ∀ e ∈ entries, e.fate ≠ .pending

/-- The datagram in hand is the latest one, and without an answer; all others are settled. -/
def Stage (entries : List Entry) : Sending → Prop
  | .resolve packet | .wait packet =>
    ∃ done e, entries = done ++ [e] ∧ e.packet = packet ∧ e.fate = .pending ∧ Settled done
  | _ => Settled entries

section Tally

variable {cut : Nat → Entry → MacAddress → List Frame} {entries : List Entry}
  {there : Prop} {emitted : List Frame} {b : Books} {e : Entry}

theorem sent_concat (entries : List Entry) (e : Entry) :
    sent (entries ++ [e]) = sent entries ++ (e.target?.map (e, ·)).toList := by
  unfold sent
  rw [List.filterMap_append]
  cases h : e.target? <;> simp [h]

theorem Settled.concat (hdone : Settled entries) (he : e.fate ≠ .pending) :
    Settled (entries ++ [e]) := by
  intro d hd
  rcases List.mem_append.1 hd with hold | hnew
  · exact hdone d hold
  · obtain rfl := List.mem_singleton.1 hnew
    exact he

theorem countP_concat (entries : List Entry) (e : Entry) (fate : Fate) :
    (entries ++ [e]).countP (·.fate == fate) =
      entries.countP (·.fate == fate) + if e.fate == fate then 1 else 0 := by
  rw [List.countP_append, List.countP_singleton]

/-- Nothing is made of a datagram that was not cut. -/
theorem frames_concat_of_none (cut : Nat → Entry → MacAddress → List Frame)
    (entries : List Entry) (he : e.target? = none) :
    sent (entries ++ [e]) = sent entries ∧ frames cut (entries ++ [e]) = frames cut entries := by
  have hsent : sent (entries ++ [e]) = sent entries := by
    rw [sent_concat, he]
    exact List.append_nil _
  refine ⟨hsent, ?_⟩
  unfold frames
  rw [hsent]

/-- A datagram that waits is in no counter. -/
theorem tally_pending (he : e.fate = .pending) :
    Tally cut (entries ++ [e]) there emitted b ↔ Tally cut entries there emitted b := by
  obtain ⟨hsent, hframes⟩ :=
    frames_concat_of_none cut entries (Entry.target?_eq_none (by rw [he]; nofun))
  have hunreachable := countP_concat entries e .unreachable
  have hoversize := countP_concat entries e .oversize
  rw [he, if_neg (by decide), Nat.add_zero] at hunreachable hoversize
  constructor
  · intro h
    exact ⟨hsent ▸ h.packets, h.identification, hunreachable ▸ h.unreachable,
      hoversize ▸ h.oversize, hframes ▸ h.frames⟩
  · intro h
    exact ⟨hsent ▸ h.packets, h.identification, hunreachable ▸ h.unreachable,
      hoversize ▸ h.oversize, hframes ▸ h.frames⟩

/-- A datagram that is cut comes after those that were cut before. -/
theorem Tally.send (h : Tally cut entries there emitted b) (hqueue : b.sending.queue = [])
    {mac : MacAddress} (he : e.fate = .sent mac) {pieces : UInt16 → List Frame}
    (hcut : ∀ i, pieces (UInt16.ofNat i) = cut i e mac) :
    Tally cut (entries ++ [e]) there emitted (b.send pieces) := by
  have hsent : sent (entries ++ [e]) = sent entries ++ [(e, mac)] := by
    rw [sent_concat, Entry.target?_eq_some_iff.2 he]
    rfl
  have hunreachable := countP_concat entries e .unreachable
  have hoversize := countP_concat entries e .oversize
  rw [he, if_neg (by simp), Nat.add_zero] at hunreachable hoversize
  refine ⟨?_, ?_, hunreachable ▸ h.unreachable, hoversize ▸ h.oversize, fun hthere => ?_⟩
  · rw [hsent, List.length_append]
    exact congrArg (· + 1) h.packets
  · show b.identification + 1 = UInt16.ofNat (b.packets + 1)
    rw [h.identification, UInt16.ofNat_add]
    rfl
  · have hbefore := h.frames hthere
    rw [hqueue, List.append_nil] at hbefore
    show emitted ++ pieces b.identification = Ledger.frames cut (entries ++ [e])
    unfold Ledger.frames at hbefore ⊢
    rw [hsent, List.zipIdx_append, List.flatMap_append, ← hbefore, h.identification, hcut,
      h.packets]
    simp

/-- A datagram that is dropped is counted, and no frame is made of it. -/
theorem Tally.drop (h : Tally cut entries there emitted b) {u o : Nat} {sending : Sending}
    (hqueue : sending.queue = b.sending.queue) (he : e.target? = none)
    (hu : u = b.unreachable + if e.fate == .unreachable then 1 else 0)
    (ho : o = b.oversize + if e.fate == .oversize then 1 else 0) :
    Tally cut (entries ++ [e]) there emitted
      { b with sending, unreachable := u, oversize := o } := by
  obtain ⟨hsent, hframes⟩ := frames_concat_of_none cut entries he
  refine ⟨hsent ▸ h.packets, h.identification, ?_, ?_, fun hthere => ?_⟩
  · rw [countP_concat, ← h.unreachable]
    exact hu
  · rw [countP_concat, ← h.oversize]
    exact ho
  · rw [hframes]
    show emitted ++ sending.queue = _
    rw [hqueue]
    exact h.frames hthere

/-- Nothing is taken, and the queue goes on by what is sent. -/
theorem Tally.go (h : Tally cut entries there emitted b) {sending : Sending} {frames : List Frame}
    (hqueue : b.sending.queue = frames ++ sending.queue) :
    Tally cut entries there (emitted ++ frames) { b with sending } := by
  refine ⟨h.packets, h.identification, h.unreachable, h.oversize, fun hthere => ?_⟩
  rw [List.append_assoc, ← hqueue]
  exact h.frames hthere

/-- The same frames have been made, wherever they are now. -/
theorem Tally.elsewhere (h : Tally cut entries there emitted b) {there' : Prop}
    {emitted' : List Frame} (hsame : there' → there ∧ emitted' = emitted) :
    Tally cut entries there' emitted' b :=
  { h with frames := fun hthere => (hsame hthere).2 ▸ h.frames (hsame hthere).1 }

end Tally

/-- The latest datagram is answered. -/
theorem enter_answer (done : List Entry) (e : Entry) (localIp : Ipv4) (answer : Arp.Answer) :
    enter (done ++ [e]) localIp [] [answer] =
      done ++ [{ e with sender := localIp, answer := some answer }] := by
  simp [enter]

/-- A new datagram that is not too long goes to its group, or has to wait. -/
theorem fate_new {packet : Packet} (hfits : ¬maxPayloadLength < packet.payload.length)
    (localIp : Ipv4) :
    Entry.fate { packet, sender := localIp } = packet.group?.elim .pending .sent := by
  unfold Entry.fate
  rw [if_neg hfits]
  dsimp only
  cases packet.group? <;> rfl

/-- With an answer a datagram that waits is sent where the answer says. -/
theorem fate_answered {e : Entry} (he : e.fate = .pending) (localIp : Ipv4) (answer : Arp.Answer) :
    Entry.fate { e with sender := localIp, answer := some answer } =
      answer.mac.elim .unreachable .sent := by
  unfold Entry.fate at he ⊢
  split at he
  · cases he
  · next hfits =>
    rw [if_neg hfits]
    dsimp only
    cases hgroup : e.packet.group? with
    | some mac =>
      rw [hgroup] at he
      cases he
    | none => rfl

/-- **A turn of the sender keeps the balance.** -/
theorem balanced_turn {cut : Nat → Entry → MacAddress → List Frame} {localIp : Ipv4}
    {pieces : UInt16 → Packet → MacAddress → List Frame}
    (hcut : ∀ i e mac, e.sender = localIp → pieces (UInt16.ofNat i) e.packet mac = cut i e mac)
    {entries : List Entry} {there : Prop} {emitted frames : List Frame} {b b' : Books}
    {packets : List Packet} {answers : List Arp.Answer}
    (hturn : Turn pieces b packets answers frames b')
    (hstage : Stage entries b.sending) (htally : Tally cut entries there emitted b) :
    Stage (enter entries localIp packets answers) b'.sending ∧
      Tally cut (enter entries localIp packets answers) there (emitted ++ frames) b' := by
  have hsame : enter entries localIp [] [] = entries := List.append_nil _
  have hnew : ∀ packet, enter entries localIp [packet] [] =
      entries ++ [{ packet, sender := localIp }] := fun packet => rfl
  have hout : emitted ++ [] = emitted := List.append_nil _
  cases hturn with
  | rest =>
    rw [hsame]
    exact ⟨hstage, htally.go rfl⟩
  | done hsending =>
    rw [hsame]
    rw [hsending] at hstage
    refine ⟨hstage, htally.go ?_⟩
    rw [hsending]
    rfl
  | oversize packet hidle hlong =>
    have hfate : Entry.fate { packet, sender := localIp } = .oversize := if_pos hlong
    have htarget : Entry.target? { packet, sender := localIp } = none :=
      Entry.target?_eq_none (by rw [hfate]; nofun)
    rw [hnew, hout]
    rw [hidle] at hstage ⊢
    refine ⟨hstage.concat (by rw [hfate]; decide), htally.drop (by rw [hidle]) htarget ?_ ?_⟩
    · rw [hfate]
      rfl
    · rw [hfate]
      rfl
  | group packet mac hidle hfits hgroup =>
    have hfate := fate_new hfits localIp
    rw [hgroup] at hfate
    have hqueue : b.sending.queue = [] := by rw [hidle]; rfl
    rw [hnew, hout]
    rw [hidle] at hstage
    exact ⟨hstage.concat (by rw [hfate]; nofun),
      htally.send hqueue hfate fun i => hcut i { packet, sender := localIp } mac rfl⟩
  | single packet hidle hfits hgroup =>
    have hfate := fate_new hfits localIp
    rw [hgroup] at hfate
    have hqueue : b.sending.queue = [] := by rw [hidle]; rfl
    rw [hnew]
    rw [hidle] at hstage
    exact ⟨⟨entries, _, rfl, rfl, hfate, hstage⟩, (tally_pending hfate).2 (htally.go hqueue)⟩
  | ask packet hresolve =>
    have hqueue : b.sending.queue = [] := by rw [hresolve]; rfl
    rw [hsame]
    rw [hresolve] at hstage
    exact ⟨hstage, htally.go hqueue⟩
  | failed packet answer hwait hmac =>
    have hqueue : b.sending.queue = [] := by rw [hwait]; rfl
    rw [hwait] at hstage
    obtain ⟨done, e, rfl, rfl, hpending, hdone⟩ := hstage
    have hfate := fate_answered hpending localIp answer
    rw [hmac] at hfate
    have htarget : Entry.target? { e with sender := localIp, answer := some answer } = none :=
      Entry.target?_eq_none (by rw [hfate]; nofun)
    rw [enter_answer, hout]
    refine ⟨hdone.concat (by rw [hfate]; nofun), ?_⟩
    refine ((tally_pending hpending).1 htally).drop hqueue.symm htarget ?_ ?_
    · rw [hfate]
      rfl
    · rw [hfate]
      rfl
  | found packet answer mac hwait hmac =>
    have hqueue : b.sending.queue = [] := by rw [hwait]; rfl
    rw [hwait] at hstage
    obtain ⟨done, e, rfl, rfl, hpending, hdone⟩ := hstage
    have hfate := fate_answered hpending localIp answer
    rw [hmac] at hfate
    rw [enter_answer, hout]
    exact ⟨hdone.concat (by rw [hfate]; nofun),
      ((tally_pending hpending).1 htally).send hqueue hfate fun i =>
        hcut i { e with sender := localIp, answer := some answer } mac rfl⟩
  | emit frame rest hsend =>
    have hqueue : (if rest.isEmpty then Sending.idle else .send rest).queue = rest := by
      cases rest <;> rfl
    rw [hsame]
    rw [hsend] at hstage
    refine ⟨?_, htally.go ?_⟩
    · dsimp only
      split <;> exact hstage
    · rw [hsend, hqueue]
      rfl

/-! ## §5. Runs. -/

/-- Everything the ledger says at every moment of a run of the layer `l`. -/
structure Balanced (l : Layer) (h : Ledger) : Prop where
  cuts : l.CutsLike h.station.layer
  stage : Stage h.entries h.station.layer.sending
  tally : Tally (fun i e mac => l.pieces (UInt16.ofNat i) e.sender e.packet mac) h.entries
    (h.station.link.outbound.closed = false) (h.collected ++ h.station.outgoing) h.station.books

theorem next_step_balanced {l : Layer} {h : Ledger} (hb : h.Balanced l) :
    (h.next .step).Balanced l := by
  obtain ⟨packets, answers, frames, hturn, hmoved⟩ := h.station.step_turn
  have hpackets : h.station.arbitrated.layer.crossbar.outbox.taken
      h.station.step.state.layer.crossbar.outbox = packets := Pipe.taken_eq hmoved.outbox
  have hanswers : h.station.table.answers.taken h.station.step.state.table.answers = answers :=
    Pipe.taken_eq hmoved.answers
  obtain ⟨hstage, htally⟩ := balanced_turn
    (fun i e mac he => by rw [hb.cuts.pieces, he]) hturn hb.stage hb.tally
  have hentries : (h.next .step).entries =
      enter h.entries h.station.localIp packets answers := by
    show enter _ _ _ _ = _
    rw [hpackets, hanswers]
  have hcuts : l.CutsLike h.station.arbitrated.layer := ⟨hb.cuts.mac, hb.cuts.size, hb.cuts.stage⟩
  refine ⟨hcuts.trans hmoved.cuts, ?_, ?_⟩
  · rw [hentries]
    exact hstage
  · rw [hentries]
    refine htally.elsewhere fun hopen => ?_
    have hbefore : h.station.link.outbound.closed = false := hmoved.closed.symm.trans hopen
    have hout : h.station.step.state.outgoing = h.station.outgoing ++ frames :=
      hmoved.outgoing hbefore
    refine ⟨hbefore, ?_⟩
    show h.collected ++ [] ++ h.station.step.state.outgoing = _
    rw [List.append_nil, hout, List.append_assoc]

/-- Events other than steps leave the sender as it is, but for the frames that are taken. -/
theorem after_other {event : Event} (hevent : event ≠ .step) (s : Station) :
    (s.after event).books = s.books ∧ s.layer.CutsLike (s.after event).layer ∧
      ((s.after event).link.outbound.closed = false → s.link.outbound.closed = false ∧
        s.collectedBy event ++ (s.after event).outgoing = s.outgoing) := by
  have huse : ∀ (protocol : UInt8) (f : Link Packet → Link Packet),
      (s.use protocol f).books = s.books ∧ s.layer.CutsLike (s.use protocol f).layer ∧
        ((s.use protocol f).link.outbound.closed = false → s.link.outbound.closed = false ∧
          (s.use protocol f).outgoing = s.outgoing) := by
    intro protocol f
    unfold Station.use
    cases s.layer.crossbar.link? protocol.toUInt16 <;>
      exact ⟨rfl, .of_same rfl rfl rfl, fun hopen => ⟨hopen, rfl⟩⟩
  cases event with
  | step => exact absurd rfl hevent
  | hangUp => exact ⟨rfl, .of_same rfl rfl rfl, nofun⟩
  | collect n =>
    refine ⟨rfl, .of_same rfl rfl rfl, fun hopen => ⟨hopen, ?_⟩⟩
    show s.link.outbound.items.take n ++ (s.link.outbound.items.drop n ++ _) = _
    rw [← List.append_assoc, List.take_append_drop]
    rfl
  | send protocol _ | take protocol _ => exact huse protocol _
  | register protocol =>
    simp only [Station.after, Layer.register]
    cases s.layer.crossbar.register protocol.toUInt16 <;>
      exact ⟨rfl, .of_same rfl rfl rfl, fun hopen => ⟨hopen, rfl⟩⟩
  | arrive _ | lookUp _ | answer _ | readdress _ | abandon _ =>
    exact ⟨rfl, .of_same rfl rfl rfl, fun hopen => ⟨hopen, rfl⟩⟩

/-- **Every event keeps the ledger balanced.** -/
theorem next_balanced {l : Layer} {h : Ledger} (hb : h.Balanced l) (event : Event) :
    (h.next event).Balanced l := by
  by_cases hstep : event = .step
  · rw [hstep]
    exact next_step_balanced hb
  · obtain ⟨hbooks, hcuts, hout⟩ := after_other hstep h.station
    have hentries : (h.next event).entries = h.entries := by
      cases event with
      | step => exact absurd rfl hstep
      | _ => rfl
    have hsending : (h.station.after event).layer.sending = h.station.layer.sending :=
      congrArg Books.sending hbooks
    refine ⟨hb.cuts.trans hcuts, ?_, ?_⟩
    · rw [hentries]
      show Stage h.entries (h.station.after event).layer.sending
      rw [hsending]
      exact hb.stage
    · rw [hentries]
      show Tally _ h.entries _ _ (h.station.after event).books
      rw [hbooks]
      refine hb.tally.elsewhere fun hopen => ?_
      obtain ⟨hbefore, hframes⟩ := hout hopen
      refine ⟨hbefore, ?_⟩
      show h.collected ++ h.station.collectedBy event ++ (h.station.after event).outgoing = _
      rw [List.append_assoc, hframes]

theorem run_balanced {l : Layer} {h : Ledger} (hb : h.Balanced l) (events : List Event) :
    (h.run events).Balanced l := by
  induction events generalizing h with
  | nil => exact hb
  | cons event events ih => exact ih (next_balanced hb event)

/-- Every datagram has one fate. -/
theorem length_eq (entries : List Entry) :
    entries.length = (sent entries).length + entries.countP (·.fate == .unreachable) +
      entries.countP (·.fate == .oversize) + entries.countP (·.fate == .pending) := by
  induction entries with
  | nil => rfl
  | cons e entries ih =>
    have hsent : (sent (e :: entries)).length =
        (sent entries).length + if e.target?.isSome then 1 else 0 := by
      unfold sent
      rw [List.filterMap_cons]
      cases e.target? <;> rfl
    rw [List.length_cons, hsent, List.countP_cons, List.countP_cons, List.countP_cons, ih]
    unfold Entry.target?
    cases e.fate <;> simp <;> omega

/-- At most one datagram is in hand. -/
theorem Stage.pending {entries : List Entry} {sending : Sending} (h : Stage entries sending) :
    entries.countP (·.fate == .pending) = if sending.looksUp then 1 else 0 := by
  have hnone : ∀ {entries : List Entry}, Settled entries →
      entries.countP (·.fate == .pending) = 0 := by
    intro entries hsettled
    rw [List.countP_eq_zero]
    intro e he hpending
    exact hsettled e he (eq_of_beq hpending)
  cases sending with
  | resolve packet | wait packet =>
    obtain ⟨done, e, rfl, -, hpending, hdone⟩ := h
    rw [countP_concat, hnone hdone, hpending]
    rfl
  | idle | send _ => exact hnone h

theorem mem_sent {entries : List Entry} {e : Entry} {target : MacAddress}
    (h : (e, target) ∈ sent entries) : e.fate = .sent target := by
  obtain ⟨d, -, hd⟩ := List.mem_filterMap.1 h
  obtain ⟨mac, htarget, heq⟩ := Option.map_eq_some_iff.1 hd
  cases heq
  exact Entry.target?_eq_some_iff.1 htarget

/-- A layer that was just made has no datagrams, and none are in its books. -/
theorem make_balanced (mac : MacAddress) (mtu : Nat) (promiscuous : Bool)
    (width depth linkDepth : Nat) (table : Arp.Table) (localIp : Ipv4) :
    let layer := Layer.make mac mtu promiscuous width depth
    Balanced layer { station := ⟨layer, .make linkDepth, table, localIp⟩ } :=
  ⟨.of_same rfl rfl rfl, nofun, rfl, rfl, rfl, rfl, fun _ => rfl⟩

/-- **Datagrams are accounted for.**  Whatever the subscribers send, the
resolver answers and the MAC takes, the datagrams taken from the crossbar are
those that were cut, those whose station did not answer, those that were too
long, and one more while a station is being looked up.  The frames that left,
and those that are still to leave, are the fragments of the datagrams that were
cut, one datagram after the other in the order they were taken, and the
identification of the `i`-th of them is `i`. -/
theorem datagrams_accounted (mac : MacAddress) (mtu : Nat) (promiscuous : Bool)
    (width depth linkDepth : Nat) (table : Arp.Table) (localIp : Ipv4) (events : List Event) :
    let layer := Layer.make mac mtu promiscuous width depth
    let h := run { station := ⟨layer, .make linkDepth, table, localIp⟩ } events
    let now := h.station.layer
    let cut := fun (i : Nat) (e : Entry) (target : MacAddress) =>
      layer.pieces (UInt16.ofNat i) e.sender e.packet target
    h.entries.length = now.stats.txPackets + now.stats.targetUnreachable + now.stats.txOversize +
        (if now.sending.looksUp then 1 else 0) ∧
      (now.stats.txPackets = (sent h.entries).length ∧
        now.stats.targetUnreachable = h.entries.countP (·.fate == .unreachable) ∧
        now.stats.txOversize = h.entries.countP (·.fate == .oversize) ∧
        now.identification = UInt16.ofNat now.stats.txPackets) ∧
      (h.station.link.outbound.closed = false →
        h.collected ++ (h.station.link.outbound.items ++ now.heldOut.toList) ++ now.sending.queue =
          frames cut h.entries) ∧
      (SupportedWidth width → ∀ e target, (e, target) ∈ sent h.entries → ∀ i,
        e.packet.Fragments e.sender (UInt16.ofNat i) (cut i e target) ∧
          ∀ f ∈ cut i e target, f.target = target ∧ f.sender = mac ∧ f.type = Ethernet.typeIp) := by
  intro layer h now cut
  have hb : h.Balanced layer :=
    run_balanced (make_balanced mac mtu promiscuous width depth linkDepth table localIp) events
  have hpackets : now.stats.txPackets = (sent h.entries).length := hb.tally.packets
  have hunreachable : now.stats.targetUnreachable = h.entries.countP (·.fate == .unreachable) :=
    hb.tally.unreachable
  have hoversize : now.stats.txOversize = h.entries.countP (·.fate == .oversize) :=
    hb.tally.oversize
  have hpending : h.entries.countP (·.fate == .pending) = if now.sending.looksUp then 1 else 0 :=
    hb.stage.pending
  refine ⟨?_, ⟨hpackets, hunreachable, hoversize, hb.tally.identification⟩, hb.tally.frames, ?_⟩
  · rw [hpackets, hunreachable, hoversize, ← hpending]
    exact length_eq h.entries
  · intro hwidth e target he i
    have hfits : ¬maxPayloadLength < e.packet.payload.length := by
      intro hlong
      have hfate := mem_sent he
      rw [Entry.fate, if_pos hlong] at hfate
      cases hfate
    let numbered : Layer := { layer with identification := UInt16.ofNat i }
    have hcut : cut i e target = numbered.frames e.sender e.packet target :=
      Layer.pieces_eq_frames ⟨rfl, hwidth⟩ ..
    have hsize : numbered.fragmentSize = fragmentSize mtu := rfl
    rw [hcut]
    exact ⟨Layer.frames_fragments e.sender e.packet target hsize (Nat.le_of_not_lt hfits),
      Layer.addressed_frames e.sender e.packet target⟩

/-- A datagram whose station does not answer, one whose station does, and a third one. -/
def lookups : List Event :=
  let other : Ipv4 := ⟨10, 0, 0, 2⟩
  let datagram : Packet := ⟨other, 17, [1, 2, 3]⟩
  [.register 17, .send 17 datagram, .step, .step, .lookUp 1, .answer ⟨other, none⟩, .step,
    .send 17 datagram, .step, .step, .lookUp 1, .answer ⟨other, some .broadcast⟩, .step, .step,
    .collect 1, .send 17 datagram, .step]

/-- The first is dropped, the second has left, and the third is waiting. -/
theorem datagrams_accounted_lookups :
    let h :=
      run { station := ⟨.make .broadcast 58 true 4 1, .make 1, .make, ⟨10, 0, 0, 1⟩⟩ } lookups
    SupportedWidth 4 ∧ h.entries.map (·.fate) = [.unreachable, .sent .broadcast, .pending] ∧
      h.collected.length = 1 ∧
      h.entries.length = h.station.layer.stats.txPackets +
        h.station.layer.stats.targetUnreachable + h.station.layer.stats.txOversize + 1 := by
  intro h
  have hwidth : SupportedWidth 4 := .inr (.inr (.inl rfl))
  have hfates : h.entries.map (·.fate) = [.unreachable, .sent .broadcast, .pending] := by
    decide +kernel
  have hcollected : h.collected.length = 1 := by decide +kernel
  have hwaits : h.station.layer.sending.looksUp = true := by decide +kernel
  obtain ⟨hcount, -⟩ := datagrams_accounted .broadcast 58 true 4 1 1 .make ⟨10, 0, 0, 1⟩ lookups
  refine ⟨hwidth, hfates, hcollected, ?_⟩
  rw [hwaits] at hcount
  exact hcount

end Ledger
end NetBoard.Ip
