/-
  NetBoard.Proofs.Settling.Link
  ─────────────────────────────
  **MEDIA ACCESS AND RESOLUTION SETTLE.**

  The MAC hands frames on, one way or the other, and lets the cycles of its gap
  pass.  The resolver works on one lookup at a time; what it may still do for it
  is counted by how many requests it may send, so that even a resolver whose
  requests are due at once comes to an end.

  Main definitions:

      Mac.load, Arp.Station.load  — what waits in the layer and in its pipes
      Arp.Resolver.remaining      — the transitions that the resolver may still make

  Main statements:

      Mac.step_settles            — a step of the MAC settles
      Arp.Station.step_pays       — a step of the resolver pays
-/
import NetBoard.Arp.Resolver
import NetBoard.Proofs.Arp.Transitions
import NetBoard.Proofs.Datapath.Link
import NetBoard.Proofs.Ethernet.Spacing
import NetBoard.Proofs.Settling.Crossbar

namespace NetBoard

open Load Outcome

/-! ## §1. Media access. -/

namespace Ethernet.Mac

/-- The places of the crossbar of Ethernet types. -/
def crossing : Crossing where
  inbox := .macInbox
  given := .macGiven
  asked := .macAsked
  outbox := .macOutbox
  inbox_given := by decide
  inbox_asked := by decide
  asked_outbox := by decide

/-- What waits in a MAC. -/
def load (mac : Mac) : Load :=
  mac.wireIn.load .wireIn + mac.crossbar.load crossing mac.heldIn + pile .gap mac.gap.left +
    lane .wireOut mac.heldOut mac.wireOut

/-- The subscribers of a MAC have different types. -/
def Distinct (mac : Mac) : Prop := mac.crossbar.keys.Nodup

variable {mac : Mac}

/-- What waits in the pipes of one subscriber, and in the rest of the MAC. -/
theorem load_setLink (hm : mac.Distinct) {type : UInt16} {old : Link Frame}
    (h : mac.crossbar.link? type = some old) :
    ∃ rest, ∀ link : Link Frame,
      load { mac with crossbar := mac.crossbar.setLink type link } =
        rest + link.load .macGiven .macAsked := by
  obtain ⟨rest, hrest⟩ := Crossbar.load_setLink crossing mac.heldIn hm h
  refine ⟨mac.wireIn.load .wireIn + rest + pile .gap mac.gap.left +
    lane .wireOut mac.heldOut mac.wireOut, fun link => ?_⟩
  unfold load
  dsimp only
  rw [hrest]
  show mac.wireIn.load .wireIn + (rest + link.load .macGiven .macAsked) + _ + _ = _
  abel

theorem transmitNext_pays (hm : mac.Distinct) : Pays Distinct load mac mac.transmitNext := by
  unfold transmitNext
  cases hidle : mac.gap.isIdle with
  | false =>
    have hleft : 0 < mac.gap.left := Nat.pos_of_ne_zero (by simpa [Gap.isIdle] using hidle)
    have htick : mac.gap.tick.left < mac.gap.left := Nat.sub_lt hleft Nat.one_pos
    exact .moved hm ((UpTo.refl.less (Less.pile htick)).add .refl).lt
  | true =>
    cases htake : mac.crossbar.outbox.take with
    | none => exact .idle hm
    | some taken =>
      obtain ⟨frame, outbox⟩ := taken
      obtain ⟨packetizer, preambler, gap, himage⟩ :=
        wireImage_frame { mac with crossbar := { mac.crossbar with outbox } } frame
      dsimp only [Bool.not_true, Bool.false_eq_true, if_false]
      refine .moved ?_ ?_
      · rw [himage]
        exact hm
      · rw [himage]
        have houtbox := Crossbar.load_outbox_less crossing mac.heldIn htake
        exact (((UpTo.refl.less houtbox).add (.later (by decide) _ _)).add
          (.later (by decide) _ _)).lt

theorem transmit_pays (hm : mac.Distinct) : Pays Distinct load mac mac.transmit := by
  rw [transmit_eq]
  exact .afterHeld .wireOut hm (fun _ _ => hm) (fun _ _ h => (UpTo.refl.less h).lt)
    fun _ ht => transmitNext_pays ht

theorem receiveNext_pays (hm : mac.Distinct) : Pays Distinct load mac mac.receiveNext := by
  unfold receiveNext
  cases htake : mac.wireIn.take with
  | none => exact .idle hm
  | some taken =>
    obtain ⟨bs, wireIn⟩ := taken
    obtain ⟨deambler, depacketizer, stats, haccept⟩ := accept_frame { mac with wireIn } bs
    dsimp only
    generalize accept { mac with wireIn } bs = accepted at haccept
    obtain ⟨m, frame, log⟩ := accepted
    obtain rfl : m = { mac with wireIn, deambler, depacketizer, stats } := haccept
    have htaken := take_less (k := .wireIn) htake
    cases frame with
    | none => exact .moved hm (((htaken.add .refl).add .refl).add .refl).lt
    | some frame =>
      exact .moved hm
        (((htaken.add (Crossbar.load_inbox_upTo (by decide))).add .refl).add .refl).lt

theorem receive_pays (hm : mac.Distinct) : Pays Distinct load mac mac.receive := by
  rw [receive_eq]
  exact .afterHeld .macInbox hm (fun _ _ => hm)
    (fun _ _ h => (((UpTo.refl.less (Crossbar.load_inbox_less h)).add .refl).add .refl).lt)
    fun _ ht => receiveNext_pays ht

/-- **A step of the MAC settles.** -/
theorem step_settles (hm : mac.Distinct) : Settles Distinct load step mac := by
  have hexchange : Settles Distinct load
      (fun mac => mac.crossbar.step.map fun crossbar => { mac with crossbar }) mac := by
    refine Settles.map (fun mac : Mac => mac.crossbar) (fun mac crossbar => { mac with crossbar })
      (mac.wireIn.load .wireIn + pile .gap mac.gap.left + lane .wireOut mac.heldOut mac.wireOut)
      (Crossbar.step_settles crossing mac.heldIn ⟨rfl, hm⟩) (fun _ h => h.distinct) (fun xb => ?_)
      rfl (fun _ => rfl) fun _ => rfl
    show mac.wireIn.load .wireIn + xb.load crossing mac.heldIn + _ + _ = _
    abel
  exact (hexchange.andThen fun _ ht => transmit_pays ht).andThen fun _ ht => receive_pays ht

end Ethernet.Mac

/-! ## §2. Resolution. -/

namespace Arp

namespace Resolver

/-- The requests that may still be sent for a lookup, and the last look at the clock. -/
def attempts (r : Resolver) : Nat := r.parameters.maxRequests + 1 - r.requests

/-- The transitions that may still follow once an idle resolver looks at the clock. -/
def waiting (r : Resolver) : Nat := if r.isWaiting then 2 * r.attempts + 2 else 0

/-- The transitions that the resolver may still make by itself from a phase. -/
def remainingIn (r : Resolver) : Phase → Nat
  | .idle => r.waiting
  | .presentResponse _ => r.waiting + 1
  | .sendReply _ _ => r.waiting + 1
  | .updateTable _ _ => r.waiting + 2
  | .checkRequest _ _ => r.waiting + 3
  -- a request leads back to the idle phase, and to a look at the clock
  | .sendRequest => 2 * max r.attempts 1 + 1
  | .checkTable => 2 * max r.attempts 1 + 4

/-- The transitions that the resolver may still make by itself. -/
def remaining (r : Resolver) : Nat := r.remainingIn r.phase

theorem waiting_le (r : Resolver) : r.waiting ≤ 2 * r.attempts + 2 := by
  unfold waiting
  split <;> omega

theorem waiting_of_deadline {r : Resolver} {deadline : Nat} (h : r.deadline = some deadline) :
    r.waiting = 2 * r.attempts + 2 := by
  unfold waiting isWaiting
  rw [h]
  rfl

/-- What waits in a resolver. -/
def load (r : Resolver) : Load :=
  pile .resolverTurn r.remaining + hold .answer r.heldAnswer + hold .macAsked r.heldFrame

end Resolver

/-- What waits between the resolver and the IP layer. -/
def Table.load (t : Table) : Load := t.lookups.load .lookup + t.answers.load .answer

namespace Station

/-- What waits in a resolver and in its pipes. -/
def load (s : Station) : Load :=
  s.link.inbound.load .macGiven + s.table.lookups.load .lookup +
    pile .resolverTurn s.resolver.remaining + lane .answer s.resolver.heldAnswer s.table.answers +
    lane .macAsked s.resolver.heldFrame s.link.outbound

theorem load_eq (s : Station) :
    s.load = s.resolver.load + s.table.load + s.link.load .macGiven .macAsked := by
  unfold load Resolver.load Table.load Link.load
  rw [lane_eq, lane_eq]
  abel

variable {s t : Station} {now : Nat} {event : Option Message}

/-- A transition takes no frame. -/
theorem Transition.inbound {phase : Phase} {log : List Log.Line}
    (h : Transition now s event t phase log) : t.link.inbound = s.link.inbound := by
  cases h <;> rfl

/-- One of the transitions that remained, which leaves the lookups and the frames
received where they are, makes the load less whatever it sends or answers. -/
theorem load_lt_of_remaining {phase : Phase} (hinbound : t.link.inbound = s.link.inbound)
    (hlookups : t.table.lookups = s.table.lookups)
    (hremaining : t.resolver.remainingIn phase < s.resolver.remaining) :
    (t.enter phase).load < s.load := by
  unfold load
  show t.link.inbound.load .macGiven + t.table.lookups.load .lookup +
    pile .resolverTurn (t.resolver.remainingIn phase) + lane .answer t.resolver.heldAnswer _ +
    lane .macAsked t.resolver.heldFrame _ < _
  rw [hinbound, hlookups]
  exact (((UpTo.refl.less (Less.pile hremaining)).add (.later (by decide) _ _)).add
    (.later (by decide) _ _)).lt

/-- **A transition that no message asked for** is one of those that remained, or
takes a lookup. -/
theorem Transition.less {phase : Phase} {log : List Log.Line}
    (h : Transition now s none t phase log) : (t.enter phase).load < s.load := by
  -- a phase remains longer than any phase that follows it
  let r := s.resolver
  have hwaiting := r.waiting_le
  have hremaining : ∀ {p : Phase}, s.resolver.phase = p → r.remaining = r.remainingIn p :=
    congrArg r.remainingIn
  cases h with
  | gaveUp deadline hphase hwaits _ _ =>
    -- nothing waits any more but the answer
    have hbefore : r.waiting = 2 * r.attempts + 2 := Resolver.waiting_of_deadline hwaits
    refine load_lt_of_remaining rfl rfl ?_
    show 0 + 1 < r.remaining
    rw [hremaining hphase]
    show 0 + 1 < r.waiting
    omega
  | retried deadline hphase hwaits _ hmore =>
    have hbefore : r.waiting = 2 * r.attempts + 2 := Resolver.waiting_of_deadline hwaits
    have hattempts : 2 ≤ r.attempts := by
      show 2 ≤ s.resolver.parameters.maxRequests + 1 - s.resolver.requests
      omega
    refine load_lt_of_remaining rfl rfl ?_
    show 2 * max r.attempts 1 + 1 < r.remaining
    rw [hremaining hphase]
    show _ < r.waiting
    omega
  | took target lookups _ _ htake =>
    exact ((((UpTo.refl.less (take_less htake)).add (.later (by decide) _ _)).add
      (.later (by decide) _ _)).add (.later (by decide) _ _)).lt
  | replied _ ip mac hphase _ =>
    refine load_lt_of_remaining rfl rfl ?_
    show r.waiting < r.remaining
    rw [hremaining hphase]
    exact Nat.lt_succ_self _
  | matched _ mac hphase =>
    refine load_lt_of_remaining rfl rfl ?_
    show r.waiting + 2 < r.remaining
    rw [hremaining hphase]
    exact Nat.lt_succ_self _
  | mismatched _ ip mac hphase _ =>
    refine load_lt_of_remaining rfl rfl ?_
    show r.waiting < r.remaining
    rw [hremaining hphase]
    show r.waiting < r.waiting + 3
    omega
  | learned _ ip mac hphase =>
    refine load_lt_of_remaining rfl rfl ?_
    show 0 + 1 < r.remaining
    rw [hremaining hphase]
    show 0 + 1 < r.waiting + 2
    omega
  | remembered _ mac hphase _ =>
    refine load_lt_of_remaining rfl rfl ?_
    show r.waiting + 1 < r.remaining
    rw [hremaining hphase]
    show _ < 2 * max r.attempts 1 + 4
    omega
  | missed _ hphase _ =>
    refine load_lt_of_remaining rfl rfl ?_
    show 2 * max r.attempts 1 + 1 < r.remaining
    rw [hremaining hphase]
    show _ < 2 * max r.attempts 1 + 4
    omega
  | asked _ hphase _ =>
    refine load_lt_of_remaining rfl rfl ?_
    -- one request less may be sent now
    show 2 * (r.parameters.maxRequests + 1 - (r.requests + 1)) + 2 < r.remaining
    rw [hremaining hphase]
    show _ < 2 * max (r.parameters.maxRequests + 1 - r.requests) 1 + 1
    omega
  | presented _ answer hphase _ =>
    refine load_lt_of_remaining rfl rfl ?_
    show r.waiting < r.remaining
    rw [hremaining hphase]
    exact Nat.lt_succ_self _

theorem turn_pays (s : Station) (now : Nat) :
    Pays (fun _ => True) load s (s.turn now none) := by
  unfold turn
  cases h : s.transition now none with
  | none => exact .idle trivial
  | some next =>
    obtain ⟨t, phase, log⟩ := next
    exact .moved trivial (transition_eq_some_iff.1 h).less

/-- Whatever a message makes the machine do waits later than the frame did. -/
theorem turn_upTo (s : Station) (now : Nat) (event : Option Message) :
    UpTo .macGiven (s.turn now event).state.load s.load := by
  have hsame : ∀ {t : Station}, t.link.inbound = s.link.inbound → UpTo .macGiven t.load s.load := by
    intro t hinbound
    unfold load
    rw [hinbound]
    exact (((UpTo.refl.add (.later (by decide) _ _)).add (.later (by decide) _ _)).add
      (.later (by decide) _ _)).add (.later (by decide) _ _)
  unfold turn
  cases h : s.transition now event with
  | none => exact .refl
  | some next =>
    obtain ⟨t, phase, log⟩ := next
    have hinbound := (transition_eq_some_iff.1 h).inbound
    exact hsame (t := t.enter phase) hinbound

/-- Hearing a frame moves the counters and the stage only. -/
theorem hearFrame_frame (s : Station) (frame : Ethernet.Frame) :
    ∃ depacketizer stats, (s.hearFrame frame).1 =
      { s with resolver := { s.resolver with depacketizer, stats } } := by
  obtain ⟨depacketizer, stats, hresolver⟩ := hear_eq s.resolver s.localIp frame
  unfold hearFrame
  generalize s.resolver.hear s.localIp frame = heard at hresolver
  obtain ⟨r, message, log⟩ := heard
  obtain rfl : r = { s.resolver with depacketizer, stats } := hresolver
  cases message with
  | none => exact ⟨depacketizer, stats, rfl⟩
  | some m =>
    dsimp only
    split
    · exact ⟨depacketizer, stats, rfl⟩
    · exact ⟨depacketizer, _, rfl⟩

theorem flushHeld_pays (s : Station) : Pays (fun _ => True) load s s.flushHeld := by
  unfold flushHeld
  generalize hframe : flush s.resolver.heldFrame s.link.outbound = frameFlushed
  generalize hanswer : flush s.resolver.heldAnswer s.table.answers = answerFlushed
  obtain ⟨frameLeft, heldFrame, outbound⟩ := frameFlushed
  obtain ⟨answerLeft, heldAnswer, answers⟩ := answerFlushed
  dsimp only
  cases answerLeft with
  | true =>
    have hlt := (((UpTo.refl (k := .answer)
      (x := s.link.inbound.load .macGiven + s.table.lookups.load .lookup +
        pile .resolverTurn s.resolver.remaining)).less (lane_flush_less hanswer)).add
      (.later (j := .macAsked) (by decide) (2 * heldFrame.toList.length + outbound.items.length)
        (2 * s.resolver.heldFrame.toList.length + s.link.outbound.items.length))).lt
    exact ⟨⟨trivial, hlt.le, fun _ => hlt⟩, fun hidle => by simp at hidle⟩
  | false =>
    obtain ⟨rfl, rfl⟩ := flush_kept hanswer
    cases frameLeft with
    | true =>
      exact .moved trivial (UpTo.refl.less (lane_flush_less hframe)).lt
    | false =>
      obtain ⟨rfl, rfl⟩ := flush_kept hframe
      exact .idle trivial

/-- **A step of the resolver pays.** -/
theorem step_pays (s : Station) (now : Nat) : Pays (fun _ => True) load s (s.step now) := by
  refine s.flushHeld_pays.andThen fun s _ => ?_
  cases htake : s.link.inbound.take with
  | none => exact s.turn_pays now
  | some taken =>
    obtain ⟨frame, inbound⟩ := taken
    dsimp only
    obtain ⟨depacketizer, stats, hheard⟩ :=
      hearFrame_frame { s with link := { s.link with inbound } } frame
    generalize hearFrame { s with link := { s.link with inbound } } frame = heard at hheard
    obtain ⟨u, message, log⟩ := heard
    obtain rfl : u = { s with
      link := { s.link with inbound }, resolver := { s.resolver with depacketizer, stats } } := hheard
    -- the frame pays for all that its message brings about
    have htaken : Less .macGiven
        (load { s with
          link := { s.link with inbound }, resolver := { s.resolver with depacketizer, stats } })
        s.load :=
      ((((take_less htake).add .refl).add .refl).add .refl).add .refl
    have hlt := ((turn_upTo _ now message).trans_less htaken).lt
    exact ⟨⟨trivial, hlt.le, fun _ => hlt⟩, fun hidle => nomatch hidle⟩

end Station
end Arp
end NetBoard
