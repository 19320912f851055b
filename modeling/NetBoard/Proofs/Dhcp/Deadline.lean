/-
  NetBoard.Proofs.Dhcp.Deadline
  ─────────────────────────────
  **THE DEADLINE OF AN EXCHANGE.**

  A client watches the time of its exchange in the transition that a step
  makes, and a step makes none while a message is held and the port has no room
  for it.  So the time of an exchange is bounded as long as the port takes what
  it is given, and not bounded at all behind a port that does not: then the
  exchange stays as it is, however late it becomes.

  When an exchange began is noted from the outside, at the step in which the
  client leaves its rest, and not read from the client.

  Main definitions:

      Station.Blocked    — the message that is held cannot leave
      Watch              — a client, and when its latest exchange began
      Watch.InTime       — what is under way began a short time ago

  Main statements:

      proceed_clocked    — what a transition makes of the time of an exchange
      foldl_of_blocked   — a client stays blocked until the port passes something on
      overdue_iff_blocked
                         — after a step an exchange is overdue only if it was before,
                           and the client is blocked
-/
import NetBoard.Proofs.Dhcp.Exchange

namespace NetBoard.Dhcp

open Udp (UserPacket)

namespace Station

variable {s t : Station} {now : Nat}

/-! ## §1. Transitions. -/

/-- What a transition makes of the time of an exchange: one that begins has it
from now, and the others keep what they have. -/
structure Clocked (now : Nat) (s t : Station) : Prop where
  timeout : t.client.timeout = s.client.timeout
  begun : s.client.phase = .idle → t.client.phase ≠ .idle → t.client.started = some now
  kept : s.client.phase ≠ .idle → t.client.started = s.client.started

/-- In an exchange only the times have to be kept. -/
theorem Clocked.of_busy (hbusy : s.client.phase ≠ .idle)
    (htimeout : t.client.timeout = s.client.timeout)
    (hstarted : t.client.started = s.client.started) : Clocked now s t :=
  ⟨htimeout, fun hidle => absurd hidle hbusy, fun _ => hstarted⟩

theorem proceed_clocked (now : Nat) (s : Station) : Clocked now s (s.proceed now).state := by
  unfold proceed
  split
  · exact ⟨rfl, fun _ hbusy => absurd rfl hbusy, fun _ => rfl⟩
  · rw [state_advance]
    unfold act
    cases hphase : s.client.phase with
    | idle =>
      dsimp only [Outcome.map]
      split
      · exact ⟨rfl, fun _ _ => rfl, fun hbusy => absurd hphase hbusy⟩
      · exact ⟨rfl, fun _ hbusy => absurd rfl hbusy, fun hbusy => absurd hphase hbusy⟩
    | sendDiscover => exact .of_busy (by rw [hphase]; decide) rfl rfl
    | sendRequest => exact .of_busy (by rw [hphase]; decide) rfl rfl
    | receiveOffer =>
      have hbusy : s.client.phase ≠ .idle := by rw [hphase]; decide
      dsimp only
      obtain ⟨-, hheard⟩ | ⟨packet, inbound, stats, -, hheard | ⟨offer, hheard, -⟩⟩ :=
        s.hear_cases .offer
      all_goals
        rw [hheard]
        exact .of_busy hbusy rfl rfl
    | receiveAck =>
      have hbusy : s.client.phase ≠ .idle := by rw [hphase]; decide
      dsimp only
      obtain ⟨-, hheard⟩ | ⟨packet, inbound, stats, -, hheard | ⟨ack, hheard, -⟩⟩ :=
        s.hear_cases .ack
      · rw [hheard]
        exact .of_busy hbusy rfl rfl
      · rw [hheard]
        exact .of_busy hbusy rfl rfl
      · rw [hheard]
        dsimp only
        cases s.client.offer with
        | none => exact .of_busy hbusy rfl rfl
        | some offer => exact .of_busy hbusy rfl rfl

/-- An exchange that a transition leaves under way has time left. -/
theorem lt_of_proceed {since : Nat} (hstarted : s.client.started = some since)
    (hbusy : s.client.phase ≠ .idle) (hafter : (s.proceed now).state.client.phase ≠ .idle) :
    now - since < s.client.timeout := by
  by_contra hlate
  have hoverdue : s.client.isOverdue now = true := by
    unfold Client.isOverdue
    rw [hstarted, Option.any_some, decide_eq_true (Nat.le_of_not_lt hlate), Bool.and_true]
    exact bne_iff_ne.mpr hbusy
  refine hafter ?_
  unfold proceed
  rw [if_pos hoverdue]
  rfl

/-! ## §2. Steps. -/

/-- The message that is held cannot leave: there is no room behind the port,
and somebody is there to make some. -/
structure Blocked (s : Station) : Prop where
  held : s.client.heldOut ≠ none
  opened : s.link.outbound.closed = false
  full : s.link.outbound.hasRoom = false

/-- A step of a client that is blocked does nothing, and says so. -/
theorem Blocked.step (h : s.Blocked) (now : Nat) : s.step now = .idle s := by
  obtain ⟨packet, hheld⟩ := Option.ne_none_iff_exists'.mp h.held
  unfold Station.step
  rw [hheld]
  dsimp only
  rw [flush_of_open h.opened, h.full]
  rfl

/-- Any other step makes a transition; what was held has left before. -/
theorem step_of_not_blocked (h : ¬ s.Blocked) (now : Nat) : ∃ heldOut outbound,
    (s.step now).state = (proceed now { s with
      client := { s.client with heldOut }, link := { s.link with outbound } }).state := by
  unfold step
  cases hheld : s.client.heldOut with
  | none => exact ⟨s.client.heldOut, s.link.outbound, rfl⟩
  | some packet =>
    dsimp only
    cases hclosed : s.link.outbound.closed with
    | true =>
      rw [flush_of_closed hclosed]
      exact ⟨none, _, rfl⟩
    | false =>
      rw [flush_of_open hclosed]
      by_cases hroom : s.link.outbound.hasRoom = true
      · rw [if_pos hroom]
        exact ⟨none, _, rfl⟩
      · have hblocked : s.Blocked := ⟨by rw [hheld]; simp, hclosed, Bool.eq_false_iff.mpr hroom⟩
        exact absurd hblocked h

end Station

/-! ## §3. Runs. -/

/-- A client, and the time at which its latest exchange was seen to begin. -/
structure Watch where
  station : Station
  began : Option Nat := none

namespace Watch

/-- What one event does.  An exchange begins in the step in which the client
leaves its rest. -/
def next (w : Watch) (event : Event) : Watch :=
  let station := (History.next { station := w.station } event).station
  match event with
  | .step now =>
    if w.station.client.phase = .idle ∧ station.client.phase ≠ .idle then
      { station, began := some now }
    else { w with station }
  | .deliver _ | .collect | .renew => { w with station }

/-- A run from a station. -/
def run (s : Station) (events : List Event) : Watch := events.foldl next { station := s }

/-- The client rests, or its exchange began less than `timeout` ago. -/
def InTime (timeout now : Nat) (w : Watch) : Prop :=
  w.station.client.phase = .idle ∨ ∃ since, w.began = some since ∧ now - since < timeout

/-- What is noted of an exchange that is under way is what the client goes by. -/
structure Kept (timeout : Nat) (w : Watch) : Prop where
  timeout : w.station.client.timeout = timeout
  began : w.station.client.phase ≠ .idle →
    ∃ since, w.began = some since ∧ w.station.client.started = some since

variable {w : Watch} {timeout : Nat}

theorem next_step (w : Watch) (now : Nat) :
    let station := (w.station.step now).state
    w.next (.step now) =
      if w.station.client.phase = .idle ∧ station.client.phase ≠ .idle then
        { station, began := some now }
      else { w with station } := by
  unfold next
  dsimp only [History.next]
  rw [History.station_observe]

/-- A step continues an exchange, begins one, or leaves the client at rest. -/
theorem next_step_cases (w : Watch) (now : Nat) :
    let after := w.next (.step now)
    after.station = (w.station.step now).state ∧
    (after.station.client.phase ≠ .idle →
      w.station.client.phase = .idle ∧ after.began = some now ∨
      w.station.client.phase ≠ .idle ∧ after.began = w.began) := by
  rw [next_step]
  dsimp only
  split
  · next hbegins => exact ⟨rfl, fun _ => .inl ⟨hbegins.1, rfl⟩⟩
  · next hgoes =>
    refine ⟨rfl, fun hbusy => .inr ⟨fun hidle => hgoes ⟨hidle, hbusy⟩, rfl⟩⟩

/-- While the client is blocked a step changes nothing. -/
theorem next_step_of_blocked (h : w.station.Blocked) (now : Nat) : w.next (.step now) = w := by
  rw [next_step, h.step]
  exact if_neg fun hboth => hboth.2 hboth.1

/-- A step that is not blocked leaves no exchange under way that is overdue. -/
theorem Kept.step (hw : w.Kept timeout) (htimeout : 0 < timeout) (hfree : ¬ w.station.Blocked)
    (now : Nat) : (w.next (.step now)).Kept timeout ∧ (w.next (.step now)).InTime timeout now := by
  obtain ⟨heldOut, outbound, hstep⟩ := Station.step_of_not_blocked hfree now
  let s : Station := { w.station with
    client := { w.station.client with heldOut }, link := { w.station.link with outbound } }
  obtain ⟨hstation, hbusy⟩ := w.next_step_cases now
  rw [hstep] at hstation
  have hclocked : Station.Clocked now s (w.next (.step now)).station :=
    hstation ▸ Station.proceed_clocked now s
  have htime (hafter : (w.next (.step now)).station.client.phase ≠ .idle) :
      ∃ since, (w.next (.step now)).began = some since ∧
        (w.next (.step now)).station.client.started = some since ∧ now - since < timeout := by
    obtain ⟨hidle, hbegan⟩ | ⟨hgoes, hbegan⟩ := hbusy hafter
    · exact ⟨now, hbegan, hclocked.begun hidle hafter, by rwa [Nat.sub_self]⟩
    · obtain ⟨since, hsince, hstarted⟩ := hw.began hgoes
      refine ⟨since, hbegan.trans hsince, (hclocked.kept hgoes).trans hstarted, ?_⟩
      rw [← hw.timeout]
      exact Station.lt_of_proceed (s := s) hstarted hgoes (hstation ▸ hafter)
  refine ⟨⟨hclocked.timeout.trans hw.timeout, fun hafter => ?_⟩, ?_⟩
  · obtain ⟨since, hbegan, hstarted, -⟩ := htime hafter
    exact ⟨since, hbegan, hstarted⟩
  · by_cases hafter : (w.next (.step now)).station.client.phase = .idle
    · exact .inl hafter
    · obtain ⟨since, hbegan, -, hlt⟩ := htime hafter
      exact .inr ⟨since, hbegan, hlt⟩

theorem Kept.next (hw : w.Kept timeout) (htimeout : 0 < timeout) (event : Event) :
    (w.next event).Kept timeout := by
  cases event with
  | deliver p => exact ⟨hw.timeout, hw.began⟩
  | collect =>
    unfold Watch.next
    dsimp only [History.next]
    split
    · exact hw
    · exact ⟨hw.timeout, hw.began⟩
  | renew => exact ⟨hw.timeout, hw.began⟩
  | step now =>
    by_cases hblocked : w.station.Blocked
    · rwa [next_step_of_blocked hblocked]
    · exact (hw.step htimeout hblocked now).1

/-- What is noted in a run is what the client goes by. -/
theorem kept_run {s : Station} (hs : s.client.timeout = timeout) (hrest : s.client.phase = .idle)
    (htimeout : 0 < timeout) (events : List Event) : (run s events).Kept timeout := by
  suffices h : ∀ w : Watch, w.Kept timeout → (events.foldl Watch.next w).Kept timeout from
    h _ ⟨hs, fun hbusy => absurd hrest hbusy⟩
  induction events with
  | nil => exact fun w hw => hw
  | cons event events ih => exact fun w hw => ih _ (hw.next htimeout event)

/-- A client stays blocked, and its exchange as it is, until the port passes
something on. -/
theorem next_of_blocked (h : w.station.Blocked) {event : Event} (hevent : event ≠ .collect) :
    (w.next event).station.Blocked ∧
      (w.next event).station.client.phase = w.station.client.phase ∧
      (w.next event).began = w.began := by
  cases event with
  | deliver p => exact ⟨⟨h.held, h.opened, h.full⟩, rfl, rfl⟩
  | collect => exact absurd rfl hevent
  | renew => exact ⟨⟨h.held, h.opened, h.full⟩, rfl, rfl⟩
  | step now =>
    rw [next_step_of_blocked h now]
    exact ⟨h, rfl, rfl⟩

theorem foldl_of_blocked (h : w.station.Blocked) {events : List Event}
    (hevents : Event.collect ∉ events) :
    let later := events.foldl Watch.next w
    later.station.Blocked ∧ later.station.client.phase = w.station.client.phase ∧
      later.began = w.began := by
  induction events generalizing w with
  | nil => exact ⟨h, rfl, rfl⟩
  | cons event events ih =>
    rw [List.mem_cons, not_or] at hevents
    obtain ⟨hblocked, hphase, hbegan⟩ := next_of_blocked h (Ne.symm hevents.1)
    obtain ⟨hlater, hphase', hbegan'⟩ := ih hblocked hevents.2
    exact ⟨hlater, hphase'.trans hphase, hbegan'.trans hbegan⟩

end Watch

/-! ## §4. The deadline. -/

/-- **An exchange is overdue only behind a port that takes nothing.**  After a
step an exchange under way began less than the timeout ago, unless the client is
blocked; then the step does nothing, and an exchange that is overdue stays so,
until the port passes something on. -/
theorem overdue_iff_blocked {mac : MacAddress} {width timeout retry : Nat} {client : Client}
    (hmake : Client.make? mac width timeout retry = .ok client) (htimeout : 0 < timeout)
    (link : Link UserPacket) (localIp : Ipv4) (events : List Event) (now : Nat) :
    let before := Watch.run ⟨client, link, localIp⟩ events
    let after := before.next (.step now)
    (¬ after.InTime timeout now ↔ before.station.Blocked ∧ ¬ before.InTime timeout now) ∧
    (before.station.Blocked → before.station.step now = .idle before.station) ∧
    (before.station.Blocked → ∀ later : List Event, .collect ∉ later →
      let last := later.foldl Watch.next before
      last.station.Blocked ∧ last.station.client.phase = before.station.client.phase ∧
        last.began = before.began) := by
  intro before after
  obtain ⟨hclient, hrest⟩ : client.timeout = timeout ∧ client.phase = .idle := by
    unfold Client.make? at hmake
    split at hmake
    · cases hmake
      exact ⟨rfl, rfl⟩
    · cases hmake
  have hkept : before.Kept timeout :=
    Watch.kept_run (s := ⟨client, link, localIp⟩) hclient hrest htimeout events
  refine ⟨?_, fun h => h.step now, fun h _ hlater => Watch.foldl_of_blocked h hlater⟩
  by_cases hblocked : before.station.Blocked
  · have hsame : after = before := Watch.next_step_of_blocked hblocked now
    rw [hsame]
    exact ⟨fun hlate => ⟨hblocked, hlate⟩, And.right⟩
  · have hintime : after.InTime timeout now := (hkept.step htimeout hblocked now).2
    exact ⟨fun hlate => absurd hintime hlate, fun h => absurd h.1 hblocked⟩

/-- Behind a port that has room for one message, the first discovery is not passed
on.  The exchange that follows it is not given up when its second is over. -/
theorem overdue_behind_full_port :
    let mac : MacAddress := ⟨0x10, 0xe2, 0xd5, 0, 0, 1⟩
    let client : Client := { mac, width := 4, timeout := 1000, retry := 4000 }
    let events := [.step 0, .step 0, .step 1000, .renew, .step 1000, .step 1000]
    let before := Watch.run ⟨client, Link.make 1, ⟨0, 0, 0, 0⟩⟩ events
    Client.make? mac 4 1000 4000 = .ok client ∧ 0 < 1000 ∧ before.began = some 1000 ∧
      ¬ (before.next (.step 2000)).InTime 1000 2000 := by
  intro mac client events before
  have hmake : Client.make? mac 4 1000 4000 = .ok client := rfl
  have hblocked : before.station.Blocked := ⟨by decide +kernel, by decide +kernel, by decide +kernel⟩
  have hbusy : before.station.client.phase = .receiveOffer := by decide +kernel
  have hbegan : before.began = some 1000 := by decide +kernel
  have hlate : ¬ before.InTime 1000 2000 := by
    rintro (hrest | ⟨since, hsince, hlt⟩)
    · cases hbusy.symm.trans hrest
    · obtain rfl : 1000 = since := Option.some.inj (hbegan.symm.trans hsince)
      exact absurd hlt (by decide)
  have htheorem := overdue_iff_blocked hmake (by decide) (Link.make 1) ⟨0, 0, 0, 0⟩ events 2000
  exact ⟨hmake, by decide, hbegan, htheorem.1.mpr ⟨hblocked, hlate⟩⟩

end NetBoard.Dhcp
