/-
  NetBoard.Proofs.Settling.Board
  ──────────────────────────────
  **WHAT AN EVENT LEAVES BEHIND ON A BOARD.**

  A board lets its stack settle, and then writes what is on the wire.  A wire
  that was full has room after that, but the stack is not asked again: the frame
  that the MAC holds, and all that waits behind it, stay until the next event.
  Only the wire is to blame.  With nothing held, a stack that has settled has
  nothing more to do on the empty wire.

  Main definitions:

      Ethernet.Mac.Wire    — the wire on both sides, and the frame that waits for it
      Ethernet.Mac.Served  — what a step of the MAC does to its wire
      Stack.Blind          — a layer does not look at the wire
      Board.serves         — does a board let its stack settle on an event?
      Board.after          — the board after what has happened to it

  Main statements:

      settle_last          — the last step of a poll
      Resting.cleared      — a stack at rest with nothing held stays so on any wire
      Board.strands_held   — an event leaves nothing to do but for a held frame
-/
import NetBoard.Board
import NetBoard.Proofs.Pipe
import NetBoard.Proofs.Settling.Stack

namespace NetBoard

open Outcome

/-! ## §1. The last step of a poll. -/

namespace Outcome

variable {σ τ : Type} {step : σ → Outcome σ} {P : σ → Prop}

theorem settle_go_last (hstep : ∀ t, P t → P (step t).state) (left : Nat) {s : σ} (hs : P s)
    (done : Nat) (logs : List (List Log.Line)) :
    let r := settle.go step (left + 1) s done logs
    ∃ t, P t ∧ r.1 = (step t).state ∧ (r.2.1 ≠ done + (left + 1) → (step t).progress = false) := by
  -- the rounds done and the rounds left are together those of the poll
  induction left generalizing s done logs with
  | zero =>
    refine ⟨s, hs, ?_⟩
    simp only [settle.go]
    cases (step s).progress with
    | false => exact ⟨rfl, fun _ => rfl⟩
    | true => exact ⟨rfl, fun hne => absurd rfl hne⟩
  | succ left ih =>
    unfold settle.go
    dsimp only
    cases hprogress : (step s).progress with
    | false => exact ⟨s, hs, rfl, fun _ => hprogress⟩
    | true =>
      obtain ⟨t, ht, hlast, hidle⟩ := ih (hstep s hs) (done + 1) ((step s).log :: logs)
      exact ⟨t, ht, hlast, fun hne => hidle (by rwa [Nat.add_right_comm, Nat.add_assoc done])⟩

/-- Settling ends after a step; one without progress, unless the rounds are used up. -/
theorem settle_last (hstep : ∀ t, P t → P (step t).state) {rounds : Nat} (hrounds : rounds ≠ 0)
    {s : σ} (hs : P s) :
    ∃ t, P t ∧ (settle step rounds s).1 = (step t).state ∧
      ((settle step rounds s).2.1 ≠ rounds → (step t).progress = false) := by
  obtain ⟨left, rfl⟩ := Nat.exists_eq_succ_of_ne_zero hrounds
  obtain ⟨t, ht, hlast, hidle⟩ := settle_go_last hstep left hs 0 []
  exact ⟨t, ht, hlast, fun hne => hidle (by rwa [Nat.zero_add])⟩

/-- What does nothing to the whole does nothing to the part. -/
theorem idle_of_map {o : Outcome τ} {put : τ → σ} {s : σ} (part : σ → τ)
    (hpart : ∀ t, part (put t) = t) (h : o.map put = .idle s) : o = .idle (part s) := by
  have hback := congrArg (Outcome.map part) h
  obtain ⟨state, progress, log⟩ := o
  simpa only [map, idle, hpart] using hback

end Outcome

/-! ## §2. The wire of a MAC. -/

namespace Ethernet.Mac

/-- What is between a MAC and the wire: the pipes on both sides, and the frame
that waits for room. -/
structure Wire where
  arriving : Pipe Bytes
  waiting : Option Bytes
  leaving : Pipe Bytes

/-- The wire of a MAC. -/
def wire (mac : Mac) : Wire := ⟨mac.wireIn, mac.heldOut, mac.wireOut⟩

/-- The MAC on another wire. -/
def onWire (mac : Mac) (w : Wire) : Mac :=
  { mac with wireIn := w.arriving, heldOut := w.waiting, wireOut := w.leaving }

/-- What a step does to a wire: its ends stay, its depth stays, and a frame waits
only if there is no room.  Octets are taken where they arrive, and put where they
leave; the address stays. -/
structure Served (mac mac' : Mac) : Prop where
  address : mac'.address = mac.address
  closed : mac'.wireIn.closed = mac.wireIn.closed
  depth : mac'.wireOut.depth = mac.wireOut.depth
  full : mac'.heldOut ≠ none → mac'.wireOut.hasRoom = false
  taken : mac'.wireIn.items <:+ mac.wireIn.items
  sent : mac.wireOut.items <+: mac'.wireOut.items

variable {mac : Mac}

/-- With no frame that waits a MAC may as well do nothing. -/
theorem Served.refl (hheld : mac.heldOut = none) : mac.Served mac :=
  ⟨rfl, rfl, rfl, fun hwaits => absurd hheld hwaits, List.suffix_refl _, List.prefix_refl _⟩

theorem transmitNext_served (hheld : mac.heldOut = none) : mac.Served mac.transmitNext.state := by
  unfold transmitNext
  cases mac.gap.isIdle with
  | false => exact { Served.refl hheld with }
  | true =>
    cases mac.crossbar.outbox.take with
    | none => exact .refl hheld
    | some taken =>
      obtain ⟨frame, outbox⟩ := taken
      obtain ⟨packetizer, preambler, gap, himage⟩ :=
        wireImage_frame { mac with crossbar := { mac.crossbar with outbox } } frame
      dsimp only [Bool.not_true, Bool.false_eq_true, if_false]
      rw [himage]
      obtain ⟨hdepth, hfull⟩ := flush_full (some (wireImage _ frame).2) mac.wireOut
      exact ⟨rfl, rfl, hdepth, hfull, List.suffix_refl _, flush_prefix _ mac.wireOut⟩

theorem transmit_served (mac : Mac) : mac.Served mac.transmit.state := by
  cases hheld : mac.heldOut with
  | none =>
    unfold transmit
    rw [hheld]
    exact transmitNext_served hheld
  | some bs =>
    have hfull := flush_full (some bs) mac.wireOut
    have hsent := flush_prefix (some bs) mac.wireOut
    unfold transmit
    rw [hheld]
    obtain hstuck | ⟨wireOut, hleft⟩ := flush_cases bs mac.wireOut
    · rw [hstuck] at hfull
      dsimp only
      rw [hstuck]
      exact ⟨rfl, rfl, rfl, fun _ => hfull.2 (Option.some_ne_none bs), List.suffix_refl _,
        List.prefix_refl _⟩
    · rw [hleft] at hfull hsent
      dsimp only
      rw [hleft]
      have hnext : Served { mac with heldOut := none, wireOut }
          (transmitNext { mac with heldOut := none, wireOut }).state := transmitNext_served rfl
      exact { hnext with depth := hnext.depth.trans hfull.1, sent := hsent.trans hnext.sent }

theorem step_served (mac : Mac) : mac.Served mac.step.state := by
  let exchanged : Mac := { mac with crossbar := mac.crossbar.step.state }
  have hsent : exchanged.Served exchanged.transmit.state := transmit_served exchanged
  obtain ⟨wireIn, heldIn, inbox, deambler, depacketizer, stats, hreceive, hclosed, htaken⟩ :=
    receive_frame exchanged.transmit.state
  show mac.Served exchanged.transmit.state.receive.state
  rw [hreceive]
  exact { hsent with
    closed := hclosed.trans hsent.closed
    taken := htaken.trans hsent.taken }

/-- A waiting frame moves as soon as there is room. -/
theorem step_moves (hheld : mac.heldOut ≠ none) (hroom : mac.wireOut.hasRoom = true) :
    mac.step.progress = true := by
  obtain ⟨bs, hbs⟩ := Option.ne_none_iff_exists'.1 hheld
  -- the crossbar comes first, but holds no frame of the wire
  let exchanged : Mac := { mac with crossbar := mac.crossbar.step.state }
  have hmoves : exchanged.transmit.progress = true := by
    unfold transmit
    rw [show exchanged.heldOut = some bs from hbs]
    obtain hstuck | ⟨wireOut, hleft⟩ := flush_cases bs exchanged.wireOut
    · have hfull := (flush_full (some bs) exchanged.wireOut).2
      rw [hstuck] at hfull
      exact absurd hroom (Bool.eq_false_iff.1 (hfull (Option.some_ne_none bs)))
    · dsimp only
      rw [hleft]
      rfl
  show (mac.crossbar.step.progress || exchanged.transmit.progress ||
    exchanged.transmit.state.receive.progress) = true
  rw [hmoves, Bool.or_true, Bool.true_or]

/-- A MAC that does nothing does nothing in any of its parts. -/
theorem idle_parts (hm : mac.Distinct) (h : mac.step = .idle mac) :
    mac.crossbar.step = .idle mac.crossbar ∧ mac.transmit = .idle mac ∧
      mac.receive = .idle mac := by
  let exchanged : Mac := { mac with crossbar := mac.crossbar.step.state }
  have hdistinct : exchanged.Distinct :=
    (Crossbar.step_settles crossing mac.heldIn ⟨rfl, hm⟩).kept.distinct
  -- transmission and reception are honest, so what the crossbar leaves is what there was before
  have hidle : (mac.crossbar.step.progress || exchanged.transmit.progress ||
      exchanged.transmit.state.receive.progress) = false := congrArg Outcome.progress h
  simp only [Bool.or_eq_false_iff] at hidle
  obtain ⟨⟨hexchanged, hsent⟩, hreceived⟩ := hidle
  have htransmit : exchanged.transmit = .idle exchanged := (transmit_pays hdistinct).honest hsent
  rw [htransmit] at hreceived
  have hreceive : exchanged.receive = .idle exchanged := (receive_pays hdistinct).honest hreceived
  have hsame : exchanged = mac := by
    have hstate : exchanged.transmit.state.receive.state = mac := congrArg Outcome.state h
    rwa [htransmit, show (Outcome.idle exchanged).state = exchanged from rfl, hreceive] at hstate
  have hcrossbar : mac.crossbar.step.state = mac.crossbar := congrArg (·.crossbar) hsame
  rw [hsame] at htransmit hreceive
  refine ⟨?_, htransmit, hreceive⟩
  have hsettled := (Crossbar.step_settles crossing mac.heldIn ⟨rfl, hm⟩).settled hexchanged
  rwa [hcrossbar] at hsettled

/-- Without a frame that waits, transmission has to wait for the gap and for a frame. -/
theorem transmit_progress (hheld : mac.heldOut = none) :
    mac.transmit.progress = (!mac.gap.isIdle || mac.crossbar.outbox.take.isSome) := by
  unfold transmit transmitNext
  rw [hheld]
  cases mac.gap.isIdle <;> cases mac.crossbar.outbox.take <;> rfl

/-- Reception has to wait for the crossbar and for a frame. -/
theorem receive_progress (mac : Mac) :
    mac.receive.progress =
      match mac.heldIn with
      | none => mac.wireIn.take.isSome
      | some frame => (flush (some frame) mac.crossbar.inbox).1 := by
  have hnext : ∀ mac : Mac, mac.receiveNext.progress = mac.wireIn.take.isSome := by
    intro mac
    unfold receiveNext
    cases mac.wireIn.take with
    | none => rfl
    | some taken =>
      dsimp only
      generalize accept { mac with wireIn := taken.2 } taken.1 = accepted
      obtain ⟨m, frame, log⟩ := accepted
      cases frame <;> rfl
  unfold receive
  cases mac.heldIn with
  | none => exact hnext mac
  | some frame =>
    dsimp only
    generalize flush (some frame) mac.crossbar.inbox = flushed
    obtain ⟨left, heldIn, inbox⟩ := flushed
    cases left with
    | false => rfl
    | true => rfl

/-- A MAC that does nothing, and holds nothing, does nothing for want of room. -/
theorem step_cleared (hm : mac.Distinct) (hheld : mac.heldOut = none) (h : mac.step = .idle mac)
    (leaving : Pipe Bytes) :
    (mac.onWire { mac.wire with leaving }).step = .idle (mac.onWire { mac.wire with leaving }) := by
  let cleared : Mac := mac.onWire { mac.wire with leaving }
  obtain ⟨hcrossbar, htransmit, hreceive⟩ := idle_parts hm h
  have hexchanged : (mac.crossbar.step.map fun crossbar => { cleared with crossbar }) =
      .idle cleared := by
    rw [hcrossbar]
    rfl
  have hsent : cleared.transmit.progress = false := by
    have hfree : cleared.heldOut = none := hheld
    rw [transmit_progress hfree]
    have hidle := transmit_progress hheld
    rw [htransmit] at hidle
    exact hidle.symm
  have hreceived : cleared.receive.progress = false := by
    rw [receive_progress]
    have hidle := receive_progress mac
    rw [hreceive] at hidle
    exact hidle.symm
  have hdistinct : cleared.Distinct := hm
  exact andThen_idle (andThen_idle hexchanged ((transmit_pays hdistinct).honest hsent))
    ((receive_pays hdistinct).honest hreceived)

end Ethernet.Mac

/-! ## §3. Layers that do not look at the wire. -/

namespace Stack

/-- The stack on another wire. -/
def onWire (s : Stack) (w : Ethernet.Mac.Wire) : Stack := { s with mac := s.mac.onWire w }

/-- A layer does the same on any wire, and leaves the wire alone. -/
def Blind (f : Stack → Outcome Stack) : Prop := ∀ w, Apart f (·.onWire w)

variable {c : Settings} {s : Stack} {now : Nat} {f : Stack → Outcome Stack}

theorem blind_stepArp (now : Nat) : Blind (stepArp now) := by
  intro w s
  unfold stepArp
  dsimp only [onWire, Ethernet.Mac.onWire]
  cases s.mac.crossbar.link? Ethernet.typeArp <;> rfl

theorem blind_stepIp : Blind stepIp := by
  intro w s
  unfold stepIp
  dsimp only [onWire, Ethernet.Mac.onWire]
  cases s.mac.crossbar.link? Ethernet.typeIp <;> rfl

theorem blind_stepIcmp : Blind stepIcmp := by
  intro w s
  obtain ⟨_, _, _, _, ip, icmp, _, _, _, _⟩ := s
  unfold stepIcmp
  dsimp only [onWire]
  cases icmp <;> cases ip.crossbar.link? Icmp.protocol.toUInt16 <;> rfl

theorem blind_stepUdp : Blind stepUdp := by
  intro w s
  unfold stepUdp
  dsimp only [onWire]
  cases s.ip.crossbar.link? Udp.protocol.toUInt16 <;> rfl

theorem blind_stepDhcp (now : Nat) : Blind (stepDhcp now) := by
  intro w s
  obtain ⟨_, _, _, _, _, _, udp, dhcp, _, _⟩ := s
  unfold stepDhcp
  dsimp only [onWire]
  cases dhcp <;> cases udp.user? Dhcp.clientPort <;> rfl

theorem blind_stepEtherbone : Blind stepEtherbone := by
  intro w s
  obtain ⟨_, _, _, _, _, _, udp, _, etherbone, _⟩ := s
  unfold stepEtherbone
  dsimp only [onWire]
  cases etherbone with
  | none => rfl
  | some endpoint =>
    dsimp only
    cases udp.user? endpoint.port <;> rfl

theorem blind_stepStreamer : Blind stepStreamer := by
  intro w s
  obtain ⟨_, _, _, _, _, _, udp, _, _, streamer⟩ := s
  unfold stepStreamer
  dsimp only [onWire]
  cases streamer with
  | none => rfl
  | some streamer =>
    dsimp only
    cases udp.user? streamer.port <;> rfl

/-- A layer above the MAC changes nothing of it but the pipes of the subscribers. -/
def AboveMac (f : Stack → Outcome Stack) : Prop :=
  ∀ s, ∃ crossbar, (f s).state.mac = { s.mac with crossbar }

theorem AboveMac.andThen {f g : Stack → Outcome Stack} (hf : AboveMac f) (hg : AboveMac g) :
    AboveMac fun s => (f s).andThen g := by
  intro s
  obtain ⟨first, hfirst⟩ := hf s
  obtain ⟨second, hsecond⟩ := hg (f s).state
  exact ⟨second, by rw [state_andThen, hsecond, hfirst]⟩

theorem aboveMac_stepArp (now : Nat) : AboveMac (stepArp now) := by
  intro s
  unfold stepArp
  split <;> exact ⟨_, rfl⟩

theorem aboveMac_stepIp : AboveMac stepIp := by
  intro s
  unfold stepIp
  split <;> exact ⟨_, rfl⟩

theorem aboveMac_stepIcmp : AboveMac stepIcmp := by
  intro s
  unfold stepIcmp
  split <;> exact ⟨_, rfl⟩

theorem aboveMac_stepUdp : AboveMac stepUdp := by
  intro s
  unfold stepUdp
  split <;> exact ⟨_, rfl⟩

theorem aboveMac_stepDhcp (now : Nat) : AboveMac (stepDhcp now) := by
  intro s
  unfold stepDhcp
  split <;> exact ⟨_, rfl⟩

theorem aboveMac_stepEtherbone : AboveMac stepEtherbone := by
  intro s
  unfold stepEtherbone
  split
  · exact ⟨_, rfl⟩
  · split <;> exact ⟨_, rfl⟩

theorem aboveMac_stepStreamer : AboveMac stepStreamer := by
  intro s
  unfold stepStreamer
  split
  · exact ⟨_, rfl⟩
  · split <;> exact ⟨_, rfl⟩

/-- In a step of the stack only the MAC has to do with the wire. -/
theorem step_served (s : Stack) (now : Nat) : s.mac.Served (s.step now).state.mac := by
  have habove := (((((aboveMac_stepArp now).andThen aboveMac_stepIp).andThen
    aboveMac_stepIcmp).andThen aboveMac_stepUdp).andThen (aboveMac_stepDhcp now)).andThen
    aboveMac_stepEtherbone |>.andThen aboveMac_stepStreamer
  obtain ⟨crossbar, hmac⟩ := habove s.stepMac.state
  have hstep : (s.step now).state.mac = { s.mac.step.state with crossbar } := hmac
  rw [hstep]
  exact { s.mac.step_served with }

/-- **A stack at rest that holds no frame** has nothing to do on any wire that it sends on. -/
theorem Resting.cleared (h : s.Resting now) (hs : s.Wired c) (hheld : s.mac.heldOut = none)
    (leaving : Pipe Bytes) : (s.onWire { s.mac.wire with leaving }).Resting now where
  mac := by
    have hmac : s.mac.step = .idle s.mac := idle_of_map Stack.mac (fun _ => rfl) h.mac
    unfold stepMac
    dsimp only [onWire]
    rw [Ethernet.Mac.step_cleared hs.mac hheld hmac]
    rfl
  arp := (blind_stepArp now _).idle h.arp
  ip := (blind_stepIp _).idle h.ip
  icmp := (blind_stepIcmp _).idle h.icmp
  udp := (blind_stepUdp _).idle h.udp
  dhcp := (blind_stepDhcp now _).idle h.dhcp
  etherbone := (blind_stepEtherbone _).idle h.etherbone
  streamer := (blind_stepStreamer _).idle h.streamer

/-! ## §4. What a poll leaves behind. -/

/-- What a stack is at every moment: wired, and plugged into a wire of the depth
of the settings that it can read from. -/
structure Plugged (c : Settings) (s : Stack) : Prop where
  wired : s.Wired c
  opened : s.mac.wireIn.closed = false
  depth : s.mac.wireOut.depth = max c.depth 1

theorem Plugged.step (hs : s.Plugged c) (now : Nat) : (s.step now).state.Plugged c := by
  have hserved := s.step_served now
  exact ⟨hs.wired.step now, hserved.closed.trans hs.opened, hserved.depth.trans hs.depth⟩

/-- The line that says that a stack did not settle. -/
def busyLine : Log.Line := ⟨Log.medium, source, s!"stack still busy after {maxRounds} rounds"⟩

/-- **What a poll leaves behind**: a frame waits only if there is no room, and
unless the stack says that it did not settle, it is at rest. -/
theorem poll_rests (hs : s.Plugged c) (now : Nat) :
    (s.poll now).1.Plugged c ∧
      ((s.poll now).1.mac.heldOut ≠ none → (s.poll now).1.mac.wireOut.hasRoom = false) ∧
      (busyLine ∉ (s.poll now).2.2 → (s.poll now).1.Resting now) := by
  have hrounds : maxRounds ≠ 0 := by decide
  have hkept : ∀ t : Stack, t.Plugged c → (t.step now).state.Plugged c := fun _ ht => ht.step now
  obtain ⟨t, ht, hlast, hidle⟩ := settle_last hkept hrounds hs
  have hpoll : (s.poll now).1 = (t.step now).state := hlast
  rw [hpoll]
  refine ⟨ht.step now, ?_, fun hquiet => ?_⟩
  · exact (t.step_served now).full
  · refine resting_of_step ht.wired (hidle fun hbusy => hquiet ?_)
    unfold poll
    dsimp only
    rw [if_pos hbusy, hbusy]
    exact List.mem_append_right _ (List.mem_singleton_self _)

/-! ## §5. The wire of a new stack. -/

/-- A wire on which nothing has happened yet. -/
def freshWire (depth : Nat) : Ethernet.Mac.Wire := ⟨.make depth, none, .make depth⟩

/-- A MAC with the address of the settings, on a wire on which nothing has happened yet. -/
def Fresh (c : Settings) (mac : Ethernet.Mac) : Prop :=
  mac.address = c.mac ∧ mac.wire = freshWire c.depth

/-- Registering at a MAC is not seen on the wire. -/
theorem builds_fresh_register {mac : Ethernet.Mac} (hmac : Fresh c mac) (type : UInt16) :
    Builds (fun made => Fresh c made.1) (mac.register type) := by
  unfold Ethernet.Mac.register
  cases mac.crossbar.register type with
  | error fault => exact .error fault
  | ok made => exact .ok hmac

theorem builds_fresh_core (c : Settings) : Builds (fun made => Fresh c made.1.mac) (buildCore c) := by
  have hmake : Builds (Fresh c) (Ethernet.Mac.make? c.mac c.width c.bareWire c.gap c.depth) := by
    unfold Ethernet.Mac.make?
    cases checkWidth c.width with
    | error fault => exact .error fault
    | ok width => exact .ok ⟨rfl, rfl⟩
  unfold buildCore
  by_cases hentries : c.arp.entries = 0
  · simp only [if_pos hentries]
    exact .error _
  · simp only [if_neg hentries]
    refine hmake.bind fun mac hmac => ?_
    refine (builds_fresh_register hmac Ethernet.typeArp).bind fun made hmac => ?_
    refine (builds_fresh_register hmac Ethernet.typeIp).bind fun made hmac => ?_
    -- whatever the IP layer has registered
    have hany : ∀ {α : Type} (r : Except Fault α), Builds (fun _ => True) r := fun _ _ _ => trivial
    cases c.withIcmp with
    | true => exact (hany _).bind fun made _ => (hany _).bind fun made _ => .ok hmac
    | false => exact (hany _).bind fun made _ => (hany _).bind fun made _ => .ok hmac

/-- So is the MAC of a stack that is built. -/
theorem fresh_build {built : Stack × List Log.Line} (h : build c = .ok built) :
    Fresh c built.1.mac := by
  refine (?_ : Builds (fun made => Fresh c made.1.mac) (build c)) built h
  -- what is added to the stack has no part in the MAC
  have hopen : ∀ (s : Stack) (port : UInt16) (width : Nat), Fresh c s.mac →
      Fresh c (s.openPort port width).1.mac := fun _ _ _ hs => hs
  exact builds_kept hopen (builds_fresh_core c) (fun _ _ hs _ => hs) (fun _ _ _ hs _ => hs)
    fun _ _ _ hs _ => hs

end Stack

/-! ## §6. What an event leaves behind. -/

namespace Board

variable {c : Stack.Settings} {b : Board} {now : Nat} {w : Writer} {e : Effect} {event : Event}

/-- What a board leaves behind that has let its stack settle and written what was on the wire. -/
structure Drained (c : Stack.Settings) (now : Nat) (e : Effect) : Prop where
  plugged : e.board.stack.Plugged c
  written : e.board.stack.mac.wireOut.items = []
  free : e.offered.length < max c.depth 1 → e.board.stack.mac.heldOut = none
  rests : Stack.busyLine ∉ e.log → e.board.stack.mac.heldOut = none → e.board.stack.Resting now

/-- The stack after a poll has a frame that waits only if the wire was full. -/
theorem refresh_drained (hb : b.stack.Plugged c) (now : Nat) (w : Writer) :
    Drained c now (b.refresh now w) := by
  obtain ⟨hplugged, hfull, hrests⟩ := Stack.poll_rests hb now
  let polled : Stack := (b.stack.poll now).1
  let emptied : Pipe Bytes := { polled.mac.wireOut with items := [] }
  have hboard : (b.refresh now w).board.stack =
      polled.onWire { polled.mac.wire with leaving := emptied } := rfl
  have hoffered : (b.refresh now w).offered = polled.mac.wireOut.items := rfl
  have hlog : (b.refresh now w).log = (b.stack.poll now).2.2 ++ _ := rfl
  refine ⟨⟨?_, hplugged.opened, hplugged.depth⟩, rfl, fun hfew => ?_, fun hquiet hheld => ?_⟩
  · exact { hplugged.wired with mac := hplugged.wired.mac }
  · -- a frame was held because the wire was full, and all that was on it has been offered
    by_contra hheld
    have hroom := hfull hheld
    rw [hoffered, ← hplugged.depth] at hfew
    exact absurd (decide_eq_true hfew) (Bool.eq_false_iff.1 hroom)
  · rw [hlog] at hquiet
    have hpoll := hrests fun hbusy => hquiet (List.mem_append_left _ hbusy)
    rw [hboard]
    exact hpoll.cleared hplugged.wired hheld emptied

/-- What comes before, and offers nothing, does not count. -/
theorem Drained.before {f : Board → Effect} (h : Drained c now (f e.board))
    (hnone : e.offered = []) : Drained c now (e.andThen f) where
  plugged := h.plugged
  written := h.written
  free hfew := by
    refine h.free ?_
    have hoffered : (e.andThen f).offered = e.offered ++ (f e.board).offered := rfl
    rwa [hoffered, hnone, List.nil_append] at hfew
  rests hquiet := h.rests fun hbusy => hquiet (List.mem_append_right _ hbusy)

theorem board_enter (id : Nat) (phase : Phase) (b : Board) :
    (b.enter id phase).board = { b with phase } := by
  unfold Board.enter
  split
  · next hsame => rw [hsame]
  · rfl

theorem stack_enter (id : Nat) (phase : Phase) (b : Board) :
    (b.enter id phase).board.stack = b.stack := congrArg (·.stack) (board_enter id phase b)

theorem offered_enter (id : Nat) (phase : Phase) (b : Board) : (b.enter id phase).offered = [] := by
  unfold Board.enter
  split <;> rfl

/-- Nor does it count that the board changes its phase after that. -/
theorem Drained.enter (h : Drained c now e) (id : Nat) (phase : Phase) :
    Drained c now (e.andThen (Board.enter id phase)) := by
  have hstack : (e.andThen (Board.enter id phase)).board.stack = e.board.stack :=
    stack_enter id phase e.board
  have hoffered : (e.andThen (Board.enter id phase)).offered = e.offered := by
    show e.offered ++ (Board.enter id phase e.board).offered = _
    rw [offered_enter, List.append_nil]
  refine ⟨hstack ▸ h.plugged, hstack ▸ h.written, ?_, fun hquiet => ?_⟩
  · rw [hstack, hoffered]
    exact h.free
  · rw [hstack]
    exact h.rests fun hbusy => hquiet (List.mem_append_left _ hbusy)

theorem andThen_assoc (e : Effect) (f g : Board → Effect) :
    (e.andThen f).andThen g = e.andThen fun b => (f b).andThen g := by
  simp only [Effect.andThen, List.append_assoc]

/-- A frame is offered to a wire that is there, and leaves the stack plugged in. -/
theorem plugged_offerWire (hb : b.stack.Plugged c) (frame : Bytes) :
    (b.offerWire frame).1 ≠ .disconnected ∧ (b.offerWire frame).2.stack.Plugged c := by
  have hopened := hb.opened
  unfold offerWire Pipe.offer
  rw [hopened]
  cases b.stack.mac.wireIn.hasRoom with
  | true => exact ⟨Offer.noConfusion, { hb.wired with mac := hb.wired.mac }, rfl, hb.depth⟩
  | false => exact ⟨Offer.noConfusion, { hb.wired with mac := hb.wired.mac }, hopened, hb.depth⟩

theorem plugged_offerAgain (hb : b.stack.Plugged c) (frame : Bytes) :
    (b.offerAgain frame).board.stack.Plugged c ∧ (b.offerAgain frame).offered = [] := by
  have hoffered := (plugged_offerWire hb frame).2
  unfold offerAgain
  generalize b.offerWire frame = answer at hoffered
  obtain ⟨offer, b⟩ := answer
  cases offer <;> exact ⟨hoffered, rfl⟩

theorem receive_drained (hb : b.stack.Plugged c) {frame : Bytes} (haccepts : b.accepts frame = true)
    (now : Nat) (w : Writer) : Drained c now (b.receive now w frame) := by
  obtain ⟨hconnected, hoffered⟩ := plugged_offerWire hb frame
  unfold receive
  rw [if_pos haccepts]
  generalize b.offerWire frame = answer at hconnected hoffered
  obtain ⟨offer, b⟩ := answer
  cases offer with
  | sent => exact refresh_drained hoffered now w
  | disconnected => exact absurd rfl hconnected
  | full =>
    have hpolled : (b.poll now).board.stack.Plugged c := (Stack.poll_rests hoffered now).1
    obtain ⟨hagain, hnone⟩ := plugged_offerAgain hpolled frame
    -- only the second poll counts, and what is written after it
    dsimp only
    rw [andThen_assoc]
    exact Drained.before (refresh_drained hagain now w) hnone

/-! ## §7. Every event. -/

/-- Does a board let its stack settle on an event? -/
def serves (b : Board) : Event → Bool
  | .startup => b.phase == .init
  | .frame bs => b.phase == .up && b.accepts bs
  | .tick => b.phase == .up
  | .shutdown | .terminate => false

/-- The phase that follows an event. -/
def Phase.next : Phase → Event → Phase
  | .init, .startup => .up
  | .up, .shutdown => .down
  | phase, _ => phase

/-- An event, when it comes and what the interface says to the frames that are written then. -/
structure Moment where
  now : Nat
  writer : Writer
  event : Event

/-- The board after what has happened to it. -/
def after (id : Nat) (b : Board) (history : List Moment) : Board :=
  history.foldl (fun b m => (b.handle id m.now m.writer m.event).board) b

theorem handle_drained (hb : b.stack.Plugged c) (hserves : b.serves event = true) (id now : Nat)
    (w : Writer) : Drained c now (b.handle id now w event) := by
  unfold handle
  cases event with
  | startup =>
    have hphase : b.phase = .init := by simpa [serves] using hserves
    rw [hphase]
    exact Drained.enter (Drained.before (refresh_drained hb now w) rfl) id .up
  | tick =>
    have hphase : b.phase = .up := by simpa [serves] using hserves
    rw [hphase]
    exact (refresh_drained hb now w).enter id .up
  | frame bs =>
    obtain ⟨hphase, haccepts⟩ : b.phase = .up ∧ b.accepts bs = true := by
      simpa [serves] using hserves
    rw [hphase]
    exact (receive_drained hb haccepts now w).enter id .up
  | shutdown => cases hserves
  | terminate => cases hserves

/-- **On an event that the board does not serve** it goes into the phase that
follows, and does nothing else. -/
theorem handle_unserved (hignores : b.serves event = false) (id now : Nat) (w : Writer) :
    (b.handle id now w event).board = { b with phase := b.phase.next event } ∧
      (b.handle id now w event).offered = [] := by
  have henter : ∀ (log : List Log.Line) (phase : Phase),
      (Effect.andThen { board := b, log } (Board.enter id phase)).board = { b with phase } ∧
        (Effect.andThen { board := b, log } (Board.enter id phase)).offered = [] :=
    fun log phase => ⟨board_enter id phase b, offered_enter id phase b⟩
  have hnext : ∀ phase, b.phase = phase → phase.next event = phase → b = { b with phase } :=
    fun phase hphase _ => by rw [← hphase]
  unfold handle
  cases hphase : b.phase with
  | down =>
    have hstays : Phase.down.next event = .down := by cases event <;> rfl
    rw [hstays]
    exact ⟨hnext .down hphase hstays, rfl⟩
  | init =>
    cases event with
    | startup => simp [serves, hphase] at hignores
    | frame _ | tick | shutdown | terminate => exact henter [] .init
  | up =>
    cases event with
    | tick => simp [serves, hphase] at hignores
    | frame bs =>
      have hrefused : b.accepts bs = false := by simpa [serves, hphase] using hignores
      have hreceive : b.receive now w bs = { board := b } := by
        unfold receive
        rw [hrefused]
        rfl
      dsimp only [handleUp]
      rw [hreceive]
      exact henter [] .up
    | shutdown => exact henter _ .down
    | startup | terminate => exact henter [] .up

/-- So the stack is left alone. -/
theorem handle_ignored (hignores : b.serves event = false) (id now : Nat) (w : Writer) :
    (b.handle id now w event).board.stack = b.stack ∧ (b.handle id now w event).offered = [] := by
  obtain ⟨hboard, hoffered⟩ := handle_unserved hignores id now w
  exact ⟨congrArg (·.stack) hboard, hoffered⟩

/-- What a board is between two events: plugged in, and with everything written. -/
structure Waiting (c : Stack.Settings) (b : Board) : Prop where
  plugged : b.stack.Plugged c
  written : b.stack.mac.wireOut.items = []

theorem Waiting.handle (hb : b.Waiting c) (id now : Nat) (w : Writer) (event : Event) :
    (b.handle id now w event).board.Waiting c := by
  cases hserves : b.serves event with
  | true =>
    have hdrained := handle_drained hb.plugged hserves id now w
    exact ⟨hdrained.plugged, hdrained.written⟩
  | false =>
    have hstack := (handle_ignored hserves id now w).1
    exact ⟨hstack.symm ▸ hb.plugged, hstack.symm ▸ hb.written⟩

theorem Waiting.after (hb : b.Waiting c) (id : Nat) (history : List Moment) :
    (b.after id history).Waiting c := by
  induction history generalizing b with
  | nil => exact hb
  | cons m rest ih => exact ih (hb.handle id m.now m.writer m.event)

/-- A board that is built is a stack that is built, and nothing has happened to it. -/
theorem stack_build {interface : String} {index : Int} {built : Board × List Log.Line}
    (h : build interface index c = .ok built) :
    ∃ made, Stack.build c = .ok made ∧ built.1 = { interface, index, stack := made.1 } := by
  unfold build at h
  cases hstack : Stack.build c with
  | error fault =>
    rw [hstack] at h
    cases h
  | ok made =>
    rw [hstack] at h
    obtain rfl := Except.ok.inj h
    exact ⟨made, rfl, rfl⟩

theorem waiting_build {interface : String} {index : Int} {built : Board × List Log.Line}
    (h : build interface index c = .ok built) : built.1.Waiting c := by
  obtain ⟨made, hstack, hboard⟩ := stack_build h
  have hwire := (Stack.fresh_build hstack).2
  rw [hboard]
  refine ⟨⟨Stack.wired_build hstack, ?_, ?_⟩, ?_⟩
  · exact congrArg (·.arriving.closed) hwire
  · exact congrArg (·.leaving.depth) hwire
  · exact congrArg (·.leaving.items) hwire

/-- **What an event leaves behind.**  Whatever has happened to a board that could
be built: after an event all that was on the wire has been written.  An event on
which the board lets its stack settle leaves it with nothing to do but for the
frame that the MAC holds, unless the stack says that it is still busy; and if
fewer frames were written than the wire has room for, no frame is held.  Any other
event leaves the stack alone. -/
theorem strands_held {interface : String} {index : Int} {built : Board × List Log.Line}
    (h : build interface index c = .ok built) (id : Nat) (history : List Moment) (now : Nat)
    (w : Writer) (event : Event) :
    let b := built.1.after id history
    let e := b.handle id now w event
    let s := e.board.stack
    s.mac.wireOut.items = [] ∧
      (b.serves event = true →
        (e.offered.length < max c.depth 1 → s.mac.heldOut = none) ∧
          (Stack.busyLine ∉ e.log → ((s.step now).progress = false ↔ s.mac.heldOut = none))) ∧
      (b.serves event = false → s = b.stack ∧ e.offered = []) := by
  intro b e s
  have hb : b.Waiting c := (waiting_build h).after id history
  have hs : s.Plugged c ∧ s.mac.wireOut.items = [] :=
    ⟨(hb.handle id now w event).plugged, (hb.handle id now w event).written⟩
  refine ⟨hs.2, fun hserves => ?_, fun hignores => handle_ignored hignores id now w⟩
  have hdrained : Drained c now e := handle_drained hb.plugged hserves id now w
  refine ⟨hdrained.free, fun hquiet => ⟨fun hidle => ?_, fun hheld => ?_⟩⟩
  · by_contra hheld
    -- a frame that is held finds room on the empty wire
    have hroom : s.mac.wireOut.hasRoom = true := by
      unfold Pipe.hasRoom
      rw [hs.2, hs.1.depth]
      exact decide_eq_true (lt_of_lt_of_le Nat.one_pos (le_max_right _ _))
    have hmoves : s.stepMac.progress = true := Ethernet.Mac.step_moves hheld hroom
    unfold Stack.step at hidle
    simp only [progress_andThen, hmoves, Bool.true_or, Bool.true_eq_false] at hidle
  · rw [(hdrained.rests hquiet hheld).step]
    rfl

/-- Five echo replies wait for an address.  It is learned from one frame; four of
them are written then, which is what the wire has room for, and the fifth is held
while the wire is empty: only the next event lets it go. -/
theorem strands_held_reply :
    let c : Stack.Settings := {}
    let echo : Bytes :=
      [16, 226, 213, 0, 0, 0, 18, 52, 86, 120, 154, 188, 8, 0] ++
      [69, 0, 0, 28, 0, 0, 0, 0, 64, 1, 246, 250, 192, 168, 1, 100, 192, 168, 1, 50] ++
      [8, 0, 247, 254, 0, 1, 0, 0] ++ List.replicate 18 0
    let address : Bytes :=
      [16, 226, 213, 0, 0, 0, 18, 52, 86, 120, 154, 188, 8, 6] ++
      [0, 1, 8, 0, 6, 4, 0, 2, 18, 52, 86, 120, 154, 188, 192, 168, 1, 100] ++
      [16, 226, 213, 0, 0, 0, 192, 168, 1, 50] ++ List.replicate 18 0
    let w : Writer := fun _ => none
    let history : List Moment := ⟨0, w, .startup⟩ :: List.replicate 5 ⟨0, w, .frame echo⟩
    ∃ built, build "eth0" 7 c = .ok built ∧
      let b := built.1.after 0 history
      let e := b.handle 0 0 w (.frame address)
      let s := e.board.stack
      b.serves (.frame address) = true ∧ e.offered.length = 4 ∧ s.mac.wireOut.items = [] ∧
        s.mac.heldOut ≠ none ∧ (s.step 0).progress = true := by
  intro c echo address w history
  have hrun : ((build "eth0" 7 c).toOption.map fun built =>
      let b := built.1.after 0 history
      let e := b.handle 0 0 w (.frame address)
      (b.serves (.frame address), e.offered.length, e.board.stack.mac.heldOut.isSome,
        e.log.contains Stack.busyLine)) = some (true, 4, true, false) := by
    decide +kernel
  cases hbuilt : build "eth0" 7 c with
  | error fault =>
    rw [hbuilt] at hrun
    cases hrun
  | ok built =>
    rw [hbuilt] at hrun
    have hfacts := Option.some.inj hrun
    simp only [Prod.mk.injEq] at hfacts
    obtain ⟨hserves, hoffered, hheld, hquiet⟩ := hfacts
    obtain ⟨hwritten, hserved, -⟩ := strands_held hbuilt 0 history 0 w (.frame address)
    have hquiet : Stack.busyLine ∉
        ((built.1.after 0 history).handle 0 0 w (.frame address)).log := by
      simpa using hquiet
    have hne := Option.isSome_iff_ne_none.1 hheld
    refine ⟨built, rfl, hserves, hoffered, hwritten, hne, ?_⟩
    exact Bool.eq_true_of_not_eq_false fun hidle => hne (((hserved hserves).2 hquiet).1 hidle)

end Board
end NetBoard
