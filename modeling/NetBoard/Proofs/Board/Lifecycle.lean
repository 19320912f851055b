/-
  NetBoard.Proofs.Board.Lifecycle
  ───────────────────────────────
  **THE LIFE OF A BOARD, AND ITS ACCOUNTS.**

  A board comes up once, goes down once, and says nothing before and after.
  While it is up, every frame meant for it is either put on the wire into the
  MAC or counted as dropped; and what is written to the interface is what the MAC
  has put on the wire out of it, whatever the interface says to the writes.

  The accounts are kept on the side of the MAC: from the steps that the stack
  makes during an event, what each of them takes from one wire, and what it puts
  on the other.

  Main definitions:

      Outcome.visited     — the states from which steps are made while settling
      Board.steps         — the states from which the stack steps during an event
      Board.Carries       — what a part of an event does to the wires and the counter
      Board.course        — the event loop, with the time and the answers of each event
      Board.Chronicle     — a board with what has happened on its wires

  Main statements:

      settle_visited      — an invariant of the steps made so far
      handle_carries      — the wires and the counter during an event
      Board.lifecycle     — the accounts of every run of the event loop
-/
import NetBoard.Proofs.Settling.Board

namespace NetBoard

/-! ## §1. The steps of a settling. -/

namespace Outcome

variable {σ : Type} {step : σ → Outcome σ}

/-- The states from which steps are made while settling, in order. -/
def visited (step : σ → Outcome σ) : Nat → σ → List σ
  | 0, _ => []
  | left + 1, s => s :: if (step s).progress then visited step left (step s).state else []

theorem settle_go_visited {Q : List σ → σ → Prop}
    (hstep : ∀ history t, Q history t → Q (history ++ [t]) (step t).state) (left : Nat) {s : σ}
    {history : List σ} (hs : Q history s) (done : Nat) (logs : List (List Log.Line)) :
    Q (history ++ visited step left s) (settle.go step left s done logs).1 := by
  induction left generalizing s history done logs with
  | zero =>
    rw [visited, List.append_nil]
    exact hs
  | succ left ih =>
    have hnext := hstep history s hs
    unfold settle.go visited
    dsimp only
    cases (step s).progress with
    | false => exact hnext
    | true =>
      have hrest := ih hnext (done + 1) ((step s).log :: logs)
      rwa [List.append_assoc, List.singleton_append] at hrest

/-- What every step keeps about the steps made so far holds of all of them in the end. -/
theorem settle_visited {Q : List σ → σ → Prop}
    (hstep : ∀ history t, Q history t → Q (history ++ [t]) (step t).state) (rounds : Nat) {s : σ}
    (hs : Q [] s) : Q (visited step rounds s) (settle step rounds s).1 :=
  settle_go_visited hstep rounds hs 0 []

end Outcome

/-! ## §2. The wires during a poll. -/

namespace Stack

variable {s : Stack} {now : Nat}

/-- What a step takes from the wire into the MAC. -/
def taken (now : Nat) (s : Stack) : List Bytes :=
  s.mac.wireIn.taken (s.step now).state.mac.wireIn

/-- What a step puts on the wire out of the MAC. -/
def sent (now : Nat) (s : Stack) : List Bytes :=
  Ethernet.Mac.entered s.mac.wireOut (s.step now).state.mac.wireOut

/-- The states from which the stack steps during a poll. -/
def steps (now : Nat) (s : Stack) : List Stack := Outcome.visited (step now) maxRounds s

theorem wireIn_step (s : Stack) (now : Nat) :
    s.mac.wireIn.items = s.taken now ++ (s.step now).state.mac.wireIn.items := by
  obtain ⟨items, htaken⟩ := (s.step_served now).taken
  rw [taken, Pipe.taken_eq htaken.symm, htaken]

theorem wireOut_step (s : Stack) (now : Nat) :
    (s.step now).state.mac.wireOut.items = s.mac.wireOut.items ++ s.sent now := by
  obtain ⟨items, hsent⟩ := (s.step_served now).sent
  rw [sent, Ethernet.Mac.entered, ← hsent, List.drop_left]

/-- **The wires during a poll**: what has arrived has been taken or is still
there, and what was sent has been added to what was waiting. -/
theorem poll_wires (s : Stack) (now : Nat) :
    s.mac.wireIn.items = (s.steps now).flatMap (taken now) ++ (s.poll now).1.mac.wireIn.items ∧
      (s.poll now).1.mac.wireOut.items = s.mac.wireOut.items ++ (s.steps now).flatMap (sent now) ∧
      (s.poll now).1.mac.address = s.mac.address := by
  let Q : List Stack → Stack → Prop := fun history t =>
    s.mac.wireIn.items = history.flatMap (taken now) ++ t.mac.wireIn.items ∧
      t.mac.wireOut.items = s.mac.wireOut.items ++ history.flatMap (sent now) ∧
      t.mac.address = s.mac.address
  have hstep : ∀ history t, Q history t → Q (history ++ [t]) (t.step now).state := by
    intro history t ⟨htaken, hsent, haddress⟩
    refine ⟨?_, ?_, (t.step_served now).address.trans haddress⟩
    · rw [htaken, t.wireIn_step now, List.flatMap_append, List.append_assoc, List.flatMap_singleton]
    · rw [t.wireOut_step now, hsent, List.flatMap_append, List.append_assoc, List.flatMap_singleton]
  exact Outcome.settle_visited (Q := Q) hstep maxRounds ⟨rfl, (List.append_nil _).symm, rfl⟩

end Stack

/-! ## §3. The wires during an event. -/

namespace Board

variable {c : Stack.Settings} {b : Board} {e : Effect} {now : Nat} {event : Event}

/-- The frames that an event brings to a board that is up and that they are meant for. -/
def arrivals (b : Board) : Event → List Bytes
  | .frame bs => if b.phase = .up ∧ b.accepts bs = true then [bs] else []
  | _ => []

/-- The states from which the stack steps during an event. -/
def steps (now : Nat) (event : Event) (b : Board) : List Stack :=
  match b.phase, event with
  | .init, .startup | .up, .tick => b.stack.steps now
  | .up, .frame bs =>
    if b.accepts bs then
      match b.offerWire bs with
      | (.sent, b) => b.stack.steps now
      -- the stack settles once to make room, and once more with the frame
      | (.full, b) => b.stack.steps now ++ (offerAgain bs (b.poll now).board).board.stack.steps now
      | (.disconnected, _) => []
    else []
  | _, _ => []

/-- What a part of an event does to the wires and to the counter: the stack steps
from the `visited` states, the `pushed` frames are put on the wire into the MAC, and
the `lost` ones are counted. -/
structure Carries (now : Nat) (b : Board) (e : Effect) (visited : List Stack)
    (pushed lost : List Bytes) : Prop where
  arriving : b.stack.mac.wireIn.items ++ pushed =
    visited.flatMap (Stack.taken now) ++ e.board.stack.mac.wireIn.items
  leaving : e.offered ++ e.board.stack.mac.wireOut.items =
    b.stack.mac.wireOut.items ++ visited.flatMap (Stack.sent now)
  dropped : e.board.dropped = b.dropped + lost.length
  address : e.board.stack.mac.address = b.stack.mac.address

/-- Nothing happens on the wires. -/
theorem Carries.none {log : List Log.Line} : Carries now b { board := b, log } [] [] [] :=
  ⟨List.append_nil _, (List.append_nil _).symm, rfl, rfl⟩

theorem Carries.andThen {f : Board → Effect} {first second : List Stack}
    {pushed pushed' lost lost' : List Bytes} (he : Carries now b e first pushed lost)
    (hf : Carries now e.board (f e.board) second pushed' lost') :
    Carries now b (e.andThen f) (first ++ second) (pushed ++ pushed') (lost ++ lost') where
  arriving := by
    show _ = _ ++ (f e.board).board.stack.mac.wireIn.items
    rw [← List.append_assoc, he.arriving, List.append_assoc, hf.arriving, List.flatMap_append,
      List.append_assoc]
  leaving := by
    show e.offered ++ (f e.board).offered ++ (f e.board).board.stack.mac.wireOut.items = _
    rw [List.append_assoc, hf.leaving, ← List.append_assoc, he.leaving, List.flatMap_append,
      List.append_assoc]
  dropped := by
    show (f e.board).board.dropped = _
    rw [hf.dropped, he.dropped, List.length_append, Nat.add_assoc]
  address := hf.address.trans he.address

theorem poll_carries (now : Nat) (b : Board) :
    Carries now b (b.poll now) (b.stack.steps now) [] [] := by
  obtain ⟨htaken, hsent, haddress⟩ := b.stack.poll_wires now
  exact ⟨(List.append_nil _).trans htaken, hsent, rfl, haddress⟩

/-- What is written is what was on the wire. -/
theorem transmit_carries (now : Nat) (w : Writer) (b : Board) :
    Carries now b (b.transmit w) [] [] [] :=
  ⟨List.append_nil _, rfl, rfl, rfl⟩

theorem refresh_carries (now : Nat) (w : Writer) (b : Board) :
    Carries now b (b.refresh now w) (b.stack.steps now) [] [] := by
  have hboth := (poll_carries now b).andThen (transmit_carries now w (b.poll now).board)
  rwa [List.append_nil] at hboth

theorem enter_carries (now id : Nat) (phase : Phase) (b : Board) :
    Carries now b (b.enter id phase) [] [] [] := by
  unfold Board.enter
  split
  · exact .none
  · exact ⟨List.append_nil _, (List.append_nil _).symm, rfl, rfl⟩

theorem Carries.enter {visited : List Stack} {pushed lost : List Bytes}
    (he : Carries now b e visited pushed lost) (id : Nat) (phase : Phase) :
    Carries now b (e.andThen (Board.enter id phase)) visited pushed lost := by
  have hboth := he.andThen (enter_carries now id phase e.board)
  rwa [List.append_nil, List.append_nil, List.append_nil] at hboth

/-- A wire that is there takes a frame, or has no room for it. -/
theorem offerWire_cases (hopened : b.stack.mac.wireIn.closed = false) (now : Nat) (frame : Bytes) :
    (∃ next, b.offerWire frame = (.sent, next) ∧
        Carries now b { board := next } [] [frame] []) ∨
      b.offerWire frame = (.full, b) := by
  unfold offerWire Pipe.offer
  rw [hopened]
  cases b.stack.mac.wireIn.hasRoom with
  | true =>
    exact .inl ⟨_, rfl, rfl, (List.append_nil _).symm, rfl, rfl⟩
  | false => exact .inr rfl

/-- The second offer puts the frame on the wire, or counts it. -/
theorem offerAgain_carries (hopened : b.stack.mac.wireIn.closed = false) (now : Nat)
    (frame : Bytes) :
    Carries now b (b.offerAgain frame) [] [frame] [] ∨
      Carries now b (b.offerAgain frame) [] [] [frame] := by
  unfold offerAgain
  obtain ⟨next, hoffer, hcarries⟩ | hfull := offerWire_cases hopened now frame
  · rw [hoffer]
    exact .inl hcarries
  · rw [hfull]
    exact .inr ⟨List.append_nil _, (List.append_nil _).symm, rfl, rfl⟩

/-- **An accepted frame** is put on the wire once, or counted once. -/
theorem receive_carries (hb : b.stack.Plugged c) (hphase : b.phase = .up) {frame : Bytes}
    (haccepts : b.accepts frame = true) (now : Nat) (w : Writer) :
    Carries now b (b.receive now w frame) (b.steps now (.frame frame)) [frame] [] ∨
      Carries now b (b.receive now w frame) (b.steps now (.frame frame)) [] [frame] := by
  unfold receive steps
  rw [hphase, if_pos haccepts]
  dsimp only
  rw [if_pos haccepts]
  obtain ⟨next, hoffer, hcarries⟩ | hfull := offerWire_cases hb.opened now frame
  · rw [hoffer]
    exact .inl (hcarries.andThen (refresh_carries now w next))
  · rw [hfull]
    dsimp only
    rw [andThen_assoc]
    -- the second offer decides; the stack settles before it and after it
    have hpolled := poll_carries now b
    have hopened : (b.poll now).board.stack.mac.wireIn.closed = false :=
      (Stack.poll_rests hb now).1.opened
    have hlast := refresh_carries now w (offerAgain frame (b.poll now).board).board
    obtain hagain | hagain := offerAgain_carries hopened now frame
    · have hboth := (hpolled.andThen hagain).andThen hlast
      rw [List.append_nil] at hboth
      exact .inl hboth
    · have hboth := (hpolled.andThen hagain).andThen hlast
      rw [List.append_nil] at hboth
      exact .inr hboth

/-! ## §4. Events. -/

/-- The phase that is entered after an event is the one that follows it. -/
theorem phase_handle (id now : Nat) (w : Writer) (event : Event) (b : Board) :
    (b.handle id now w event).board.phase = b.phase.next event := by
  have henter : ∀ (e : Effect) (phase : Phase),
      (e.andThen (Board.enter id phase)).board.phase = phase := fun e phase =>
    congrArg (·.phase) (board_enter id phase e.board)
  unfold handle
  cases hphase : b.phase with
  | down => cases event <;> exact hphase
  | init => cases event <;> exact henter _ _
  | up => cases event <;> exact henter _ _

/-- Such an event brings no frame, and the stack makes no step. -/
theorem steps_unserved (hignores : b.serves event = false) (now : Nat) :
    b.steps now event = [] ∧ b.arrivals event = [] := by
  unfold steps arrivals
  cases hphase : b.phase <;> cases event <;> simp_all [serves]

/-- **The wires and the counter during an event**: the frame it brings is put on
the wire, or counted, and nothing else is. -/
theorem handle_carries (hb : b.stack.Plugged c) (id now : Nat) (w : Writer) (event : Event) :
    let e := b.handle id now w event
    Carries now b e (b.steps now event) (b.arrivals event) [] ∨
      Carries now b e (b.steps now event) [] (b.arrivals event) := by
  intro e
  cases hserves : b.serves event with
  | false =>
    obtain ⟨hsteps, harrivals⟩ := steps_unserved hserves now
    obtain ⟨hboard, hoffered⟩ := handle_unserved hserves id now w
    rw [hsteps, harrivals]
    refine .inl ⟨?_, ?_, ?_, ?_⟩
    · rw [hboard]
      exact List.append_nil _
    · rw [hboard, hoffered]
      exact (List.append_nil _).symm
    · rw [hboard]
      rfl
    · rw [hboard]
  | true =>
    cases event with
    | startup =>
      have hphase : b.phase = .init := by simpa [serves] using hserves
      have hsteps : b.steps now .startup = b.stack.steps now := by unfold steps; rw [hphase]
      show Carries now b (b.handle id now w .startup) _ [] [] ∨ _
      unfold handle
      rw [hsteps, hphase]
      exact .inl (Carries.enter (.andThen .none (refresh_carries now w b)) id .up)
    | tick =>
      have hphase : b.phase = .up := by simpa [serves] using hserves
      have hsteps : b.steps now .tick = b.stack.steps now := by unfold steps; rw [hphase]
      show Carries now b (b.handle id now w .tick) _ [] [] ∨ _
      unfold handle
      rw [hsteps, hphase]
      exact .inl ((refresh_carries now w b).enter id .up)
    | frame bs =>
      obtain ⟨hphase, haccepts⟩ : b.phase = .up ∧ b.accepts bs = true := by
        simpa [serves] using hserves
      have harrivals : b.arrivals (.frame bs) = [bs] := if_pos ⟨hphase, haccepts⟩
      rw [harrivals]
      show Carries now b (b.handle id now w (.frame bs)) _ _ _ ∨
        Carries now b (b.handle id now w (.frame bs)) _ _ _
      unfold handle
      rw [hphase]
      exact (receive_carries hb hphase haccepts now w).imp (·.enter id .up) (·.enter id .up)
    | shutdown => cases hserves
    | terminate => cases hserves

/-! ## §5. Answers of the interface. -/

/-- Two effects differ in what they log only. -/
def Effect.Agrees (e e' : Effect) : Prop := e.board = e'.board ∧ e.offered = e'.offered

theorem Effect.Agrees.andThen {e e' : Effect} {f g : Board → Effect} (he : e.Agrees e')
    (hf : ∀ b, (f b).Agrees (g b)) : (e.andThen f).Agrees (e'.andThen g) := by
  obtain ⟨hboard, hoffered⟩ := hf e.board
  refine ⟨?_, ?_⟩
  · show (f e.board).board = (g e'.board).board
    rw [← he.1, hboard]
  · show e.offered ++ (f e.board).offered = e'.offered ++ (g e'.board).offered
    rw [← he.1, he.2, hoffered]

/-- **What the interface says to the writes** makes no difference but for the log. -/
theorem handle_agrees (id now : Nat) (w w' : Writer) (event : Event) (b : Board) :
    (b.handle id now w event).Agrees (b.handle id now w' event) := by
  have hrefl : ∀ e : Effect, e.Agrees e := fun _ => ⟨rfl, rfl⟩
  have htransmit : ∀ b, (transmit w b).Agrees (transmit w' b) := fun _ => ⟨rfl, rfl⟩
  have hrefresh : ∀ b, (refresh now w b).Agrees (refresh now w' b) := fun b =>
    (hrefl (b.poll now)).andThen htransmit
  have hreceive : ∀ bs, (b.receive now w bs).Agrees (b.receive now w' bs) := by
    intro bs
    unfold receive
    split
    · split
      · exact (hrefl _).andThen htransmit
      · exact (hrefl _).andThen htransmit
      · exact hrefl _
    · exact hrefl _
  have henter : ∀ {e e' : Effect} (phase : Phase), e.Agrees e' →
      (e.andThen (enter id phase)).Agrees (e'.andThen (enter id phase)) :=
    fun phase he => he.andThen fun b => hrefl (enter id phase b)
  unfold handle
  cases b.phase with
  | down => exact hrefl _
  | init =>
    cases event with
    | startup => exact henter .up ((hrefl _).andThen hrefresh)
    | frame _ | tick | shutdown | terminate => exact hrefl _
  | up =>
    cases event with
    | frame bs => exact henter .up (hreceive bs)
    | tick => exact henter .up (hrefresh b)
    | startup | shutdown | terminate => exact hrefl _

/-! ## §6. Runs of the event loop. -/

/-- The event loop, where every event comes in its own time and every write has its
own answer: what was done, and the events that were not handled. -/
def course (id : Nat) (b : Board) : List Moment → Effect × List Moment
  | [] =>
    ({ board := b
       log := [⟨Log.high, source, s!"worker thread {id} notification channel closed"⟩] }, [])
  | m :: rest =>
    if m.event = .terminate then
      ({ board := b, log := [⟨Log.high, source, s!"worker thread {id} exited"⟩] }, rest)
    else
      let e := b.handle id m.now m.writer m.event
      let next := course id e.board rest
      (e.andThen fun _ => next.1, next.2)

theorem run_cons {event : Event} (hevent : event ≠ .terminate) (id now : Nat) (w : Writer)
    (b : Board) (rest : List Event) :
    b.run id now w (event :: rest) =
      ((b.handle id now w event).andThen fun _ =>
          (run id now w (b.handle id now w event).board rest).1,
        (run id now w (b.handle id now w event).board rest).2) := by
  cases event with
  | terminate => exact absurd rfl hevent
  | startup | frame _ | tick | shutdown => rfl

theorem course_cons {m : Moment} (hevent : m.event ≠ .terminate) (id : Nat) (b : Board)
    (rest : List Moment) :
    b.course id (m :: rest) =
      ((b.handle id m.now m.writer m.event).andThen fun _ =>
          (course id (b.handle id m.now m.writer m.event).board rest).1,
        (course id (b.handle id m.now m.writer m.event).board rest).2) :=
  if_neg hevent

/-- With one time and one writer for all events this is the event loop of the board. -/
theorem run_eq_course (id now : Nat) (w : Writer) (b : Board) (events : List Event) :
    let moments := events.map (Moment.mk now w)
    b.run id now w events = ((b.course id moments).1, (b.course id moments).2.map (·.event)) := by
  induction events generalizing b with
  | nil => rfl
  | cons event rest ih =>
    by_cases hevent : event = .terminate
    · subst hevent
      have hevents : (rest.map (Moment.mk now w)).map (·.event) = rest :=
        (List.map_map ..).trans (List.map_id rest)
      exact congrArg _ hevents.symm
    · dsimp only at ih ⊢
      rw [run_cons hevent, List.map_cons, course_cons hevent, ih]

/-- The events that are handled: those before the end of the channel or of the board. -/
def handled (moments : List Moment) : List Moment :=
  moments.takeWhile fun m => m.event ≠ .terminate

/-- A frame that was meant for the board and came while it was up, and whether it was lost. -/
structure Arrival where
  frame : Bytes
  lost : Bool

/-- A board with what has happened on its wires. -/
structure Chronicle where
  board : Board
  arrivals : List Arrival := []
  /-- What the MAC has taken from the wire. -/
  read : List Bytes := []
  /-- What the MAC has put on the wire. -/
  sent : List Bytes := []
  /-- What was offered to the writer. -/
  offered : List Bytes := []

namespace Chronicle

/-- What happens on the next event.  A frame is lost if the counter moves. -/
def next (id : Nat) (x : Chronicle) (m : Moment) : Chronicle :=
  let e := x.board.handle id m.now m.writer m.event
  let steps := x.board.steps m.now m.event
  { board := e.board
    arrivals := x.arrivals ++
      (x.board.arrivals m.event).map fun frame => ⟨frame, e.board.dropped ≠ x.board.dropped⟩
    read := x.read ++ steps.flatMap (Stack.taken m.now)
    sent := x.sent ++ steps.flatMap (Stack.sent m.now)
    offered := x.offered ++ e.offered }

/-- What has happened after some events. -/
def run (id : Nat) (x : Chronicle) (moments : List Moment) : Chronicle :=
  moments.foldl (next id) x

/-- What is true of a board and its wires at all times. -/
structure Balanced (c : Stack.Settings) (x : Chronicle) : Prop where
  waiting : x.board.Waiting c
  address : x.board.stack.mac.address = c.mac
  /-- What was not lost has been put on the wire, in order. -/
  kept : x.read ++ x.board.stack.mac.wireIn.items =
    (x.arrivals.filter (!·.lost)).map (·.frame)
  /-- What was lost has been counted. -/
  dropped : x.board.dropped = x.arrivals.countP (·.lost)
  /-- What was offered is what the MAC has sent. -/
  written : x.offered = x.sent

variable {x : Chronicle}

/-- The entries of an event: all of them are lost, or none. -/
theorem arrivals_next (id : Nat) (x : Chronicle) (m : Moment) {lost : Bool}
    (hlost : x.board.arrivals m.event ≠ [] →
      decide ((x.next id m).board.dropped ≠ x.board.dropped) = lost) :
    (x.next id m).arrivals = x.arrivals ++ (x.board.arrivals m.event).map (⟨·, lost⟩) := by
  show x.arrivals ++ (x.board.arrivals m.event).map
    (⟨·, decide ((x.next id m).board.dropped ≠ x.board.dropped)⟩) = _
  by_cases hnone : x.board.arrivals m.event = []
  · rw [hnone]
    rfl
  · rw [← hlost hnone]

/-- **One event keeps the accounts.** -/
theorem Balanced.next (hx : x.Balanced c) (id : Nat) (m : Moment) : (x.next id m).Balanced c := by
  let frames := x.board.arrivals m.event
  have hwaiting : (x.next id m).board.Waiting c :=
    hx.waiting.handle id m.now m.writer m.event
  -- on either account: the frames that are put on the wire, and those that are written
  have haccount : ∀ pushed lost : List Bytes,
      Carries m.now x.board (x.board.handle id m.now m.writer m.event)
        (x.board.steps m.now m.event) pushed lost →
      (x.next id m).read ++ (x.next id m).board.stack.mac.wireIn.items =
          (x.arrivals.filter (!·.lost)).map (·.frame) ++ pushed ∧
        (x.next id m).offered = (x.next id m).sent := by
    intro pushed lost h
    have hdone : (x.board.handle id m.now m.writer m.event).board.stack.mac.wireOut.items = [] :=
      hwaiting.written
    have hleaving := h.leaving
    rw [hdone, hx.waiting.written, List.append_nil, List.nil_append] at hleaving
    refine ⟨?_, ?_⟩
    · show x.read ++ _ ++ (x.board.handle id m.now m.writer m.event).board.stack.mac.wireIn.items = _
      rw [List.append_assoc, ← h.arriving, ← List.append_assoc, hx.kept]
    · show x.offered ++ _ = x.sent ++ _
      rw [hx.written, hleaving]
  obtain hpushed | hlost := handle_carries hx.waiting.plugged id m.now m.writer m.event
  · obtain ⟨hread, hwritten⟩ := haccount _ _ hpushed
    have hsame : (x.next id m).board.dropped = x.board.dropped := hpushed.dropped
    have harrivals := arrivals_next id x m fun _ => decide_eq_false fun hmoves => hmoves hsame
    refine ⟨hwaiting, hpushed.address.trans hx.address, ?_, ?_, hwritten⟩
    · rw [hread, harrivals]
      simp [List.filter_map, Function.comp_def]
    · rw [hsame, hx.dropped, harrivals]
      simp [List.countP_map, Function.comp_def]
  · obtain ⟨hread, hwritten⟩ := haccount _ _ hlost
    have hmore : (x.next id m).board.dropped = x.board.dropped + frames.length := hlost.dropped
    have hmoves : frames ≠ [] → (x.next id m).board.dropped ≠ x.board.dropped := by
      intro hsome
      have hpos : 0 < frames.length := List.length_pos_iff.2 hsome
      omega
    have harrivals := arrivals_next id x m fun hsome => decide_eq_true (hmoves hsome)
    refine ⟨hwaiting, hlost.address.trans hx.address, ?_, ?_, hwritten⟩
    · rw [hread, harrivals]
      simp [List.filter_map, Function.comp_def]
    · rw [hmore, hx.dropped, harrivals]
      simp [frames, List.countP_map, Function.comp_def]

theorem Balanced.run (hx : x.Balanced c) (id : Nat) (moments : List Moment) :
    (x.run id moments).Balanced c := by
  induction moments generalizing x with
  | nil => exact hx
  | cons m rest ih => exact ih (hx.next id m)

/-- On an event that the board does not serve nothing happens but the change of phase. -/
theorem next_unserved {m : Moment} (hignores : x.board.serves m.event = false) (id : Nat) :
    x.next id m =
      { x with board := { x.board with phase := x.board.phase.next m.event } } := by
  obtain ⟨hsteps, harrivals⟩ := steps_unserved hignores m.now
  obtain ⟨hboard, hoffered⟩ := handle_unserved hignores id m.now m.writer
  unfold next
  dsimp only
  rw [hsteps, harrivals, hboard, hoffered]
  simp

/-- A phase that no event ends, and in which none is served, goes on without an effect. -/
theorem run_silent {moments : List Moment}
    (hserves : ∀ m ∈ moments, x.board.serves m.event = false)
    (hstays : ∀ m ∈ moments, x.board.phase.next m.event = x.board.phase) (id : Nat) :
    x.run id moments = x := by
  induction moments with
  | nil => rfl
  | cons m rest ih =>
    have hnext : x.next id m = x := by
      rw [next_unserved (hserves m List.mem_cons_self), hstays m List.mem_cons_self]
    show (x.next id m).run id rest = x
    rw [hnext]
    exact ih (fun m hm => hserves m (List.mem_cons_of_mem _ hm))
      fun m hm => hstays m (List.mem_cons_of_mem _ hm)

/-- A board that is built has not started, and there is nothing on its wires. -/
theorem balanced_build {interface : String} {index : Int} {built : Board × List Log.Line}
    (h : build interface index c = .ok built) :
    Balanced c { board := built.1 } ∧ built.1.phase = .init := by
  have hwaiting := waiting_build h
  obtain ⟨made, hstack, hboard⟩ := stack_build h
  obtain ⟨haddress, hwire⟩ := Stack.fresh_build hstack
  have hempty : made.1.mac.wireIn.items = [] := congrArg (·.arriving.items) hwire
  rw [hboard] at hwaiting ⊢
  exact ⟨⟨hwaiting, haddress, hempty, rfl, rfl⟩, rfl⟩

/-- Nothing but the start is served before the start. -/
theorem run_waiting (hphase : x.board.phase = .init) {moments : List Moment}
    (hquiet : ∀ m ∈ moments, m.event ≠ .startup) (id : Nat) : x.run id moments = x := by
  refine run_silent (fun m hm => ?_) (fun m hm => ?_) id
  · have hevent := hquiet m hm
    cases hcase : m.event <;> simp_all [serves]
  · have hevent := hquiet m hm
    rw [hphase]
    cases hcase : m.event <;> simp_all [Phase.next]

/-- A board that is down stays as it is. -/
theorem run_down (hphase : x.board.phase = .down) (id : Nat) (moments : List Moment) :
    x.run id moments = x := by
  refine run_silent (fun m _ => ?_) (fun m _ => ?_) id
  · cases m.event <;> simp [serves, hphase]
  · rw [hphase]
    cases m.event <;> rfl

theorem run_append (id : Nat) (x : Chronicle) (before after : List Moment) :
    x.run id (before ++ after) = (x.run id before).run id after :=
  List.foldl_append

/-- **The event loop** handles the events before the end, and leaves those behind it. -/
theorem course_run (id : Nat) (x : Chronicle) (moments : List Moment) :
    let y := x.run id (handled moments)
    (x.board.course id moments).1.board = y.board ∧
      x.offered ++ (x.board.course id moments).1.offered = y.offered ∧
      (x.board.course id moments).2 = (moments.dropWhile fun m => m.event ≠ .terminate).tail := by
  induction moments generalizing x with
  | nil => exact ⟨rfl, List.append_nil _, rfl⟩
  | cons m rest ih =>
    by_cases hevent : m.event = .terminate
    · rw [course, if_pos hevent, handled, List.takeWhile_cons_of_neg (by simpa using hevent),
        List.dropWhile_cons_of_neg (by simpa using hevent)]
      exact ⟨rfl, List.append_nil _, rfl⟩
    · obtain ⟨hboard, hoffered, hleft⟩ := ih (x.next id m)
      have hhandled : handled (m :: rest) = m :: handled rest :=
        List.takeWhile_cons_of_pos (by simpa using hevent)
      rw [course_cons hevent, hhandled, List.dropWhile_cons_of_pos (by simpa using hevent)]
      exact ⟨hboard, (List.append_assoc ..).symm.trans hoffered, hleft⟩

end Chronicle

/-- Whatever the interface says, the same is done and the same is offered. -/
theorem course_agrees (id : Nat) (b : Board) {moments moments' : List Moment}
    (hsame : moments'.map (fun m => (m.now, m.event)) = moments.map fun m => (m.now, m.event)) :
    (b.course id moments').1.Agrees (b.course id moments).1 := by
  induction moments generalizing b moments' with
  | nil =>
    obtain rfl := List.map_eq_nil_iff.1 hsame
    exact ⟨rfl, rfl⟩
  | cons m rest ih =>
    obtain ⟨m', rest', rfl, hm, hrest⟩ := List.map_eq_cons_iff.1 hsame
    obtain ⟨hnow, hevent⟩ := Prod.mk.inj hm
    by_cases hend : m.event = .terminate
    · rw [course, course, if_pos hend, if_pos (hevent.trans hend)]
      exact ⟨rfl, rfl⟩
    · rw [course_cons hend, course_cons fun h => hend (hevent.symm.trans h), hnow, hevent]
      have hfirst := handle_agrees id m.now m'.writer m.writer m.event b
      rw [hfirst.1]
      exact hfirst.andThen fun _ => ih _ hrest

/-- A frame for the station with the address, or for a group of stations. -/
def Meant (address : MacAddress) (bs : Bytes) : Prop :=
  14 ≤ bs.length ∧ (bs.take 6 = address.octets ∨ ∃ o rest, bs = o :: rest ∧ o.toNat % 2 = 1)

theorem accepts_iff {bs : Bytes} :
    b.accepts bs = true ↔ Meant b.stack.mac.address bs := by
  have hgroup : ∀ o : UInt8, (o &&& 1 == 1) = true ↔ o.toNat % 2 = 1 := by
    intro o
    rw [beq_iff_eq, ← UInt8.toNat_inj]
    simp [UInt8.toNat_and, Nat.and_one_is_mod]
  unfold accepts Meant
  cases bs with
  | nil => simp [Ethernet.header]
  | cons o rest => simp [hgroup, Ethernet.header]

/-- **The life of a board, and its accounts.**  For every run of the event loop of
a board that could be built, whatever happens and whatever the interface says to
the writes (with one time and one writer it is the loop as the board runs it): the
loop handles the events before the first end, and leaves those behind it.  Before its
start the board does nothing; it goes down once, and stays as it is then.  A frame that
comes at another time, or is not meant for the board, leaves it as it was.  Of the
frames that were meant for it, in the order in which they came, those that were not
lost have been put on the wire, and those that were lost have been counted.  And the
frames offered to the writer are those the MAC has sent, in order: what the writer says
makes no difference. -/
theorem lifecycle {interface : String} {index : Int} {built : Board × List Log.Line}
    (h : build interface index c = .ok built) (id : Nat) (moments : List Moment) :
    let start : Chronicle := { board := built.1 }
    let x := start.run id (handled moments)
    let loop := built.1.course id moments
    (∀ now w events, moments = events.map (Moment.mk now w) →
      built.1.run id now w events = (loop.1, loop.2.map (·.event))) ∧
    (loop.1.board = x.board ∧ loop.1.offered = x.offered ∧
      loop.2 = (moments.dropWhile fun m => m.event ≠ .terminate).tail) ∧
    (∀ before after, handled moments = before ++ after →
      let y := start.run id before
      ((∀ m ∈ before, m.event ≠ .startup) → y.board = built.1 ∧ y.offered = []) ∧
      (y.board.phase = .down → x = y) ∧
      ∀ m rest, after = m :: rest →
        let z := y.next id m
        z.board.phase = y.board.phase.next m.event ∧
        (m.event = .shutdown → y.board.phase = .up →
          x.board = { y.board with phase := .down } ∧ x.offered = y.offered) ∧
        ((∀ bs, m.event ≠ .frame bs) → z.arrivals = y.arrivals) ∧
        ∀ bs, m.event = .frame bs →
          (¬(y.board.phase = .up ∧ Meant c.mac bs) → z = y) ∧
          (y.board.phase = .up ∧ Meant c.mac bs →
            ∃ lost, z.arrivals = y.arrivals ++ [⟨bs, lost⟩])) ∧
    (x.read ++ x.board.stack.mac.wireIn.items =
        (x.arrivals.filter (!·.lost)).map (·.frame) ∧
      x.board.dropped = x.arrivals.countP (·.lost)) ∧
    x.offered = x.sent ∧
    ∀ moments' : List Moment,
      (moments'.map fun m => (m.now, m.event)) = (moments.map fun m => (m.now, m.event)) →
      (built.1.course id moments').1.Agrees loop.1 := by
  intro start x loop
  obtain ⟨hbuilt, hinit⟩ := Chronicle.balanced_build h
  have hx : x.Balanced c := hbuilt.run id (handled moments)
  refine ⟨fun now w events hevents => ?_, start.course_run id moments,
    fun before after hsplit => ?_, ⟨hx.kept, hx.dropped⟩, hx.written,
    fun _ hsame => course_agrees id built.1 hsame⟩
  · show _ = ((built.1.course id moments).1, (built.1.course id moments).2.map (·.event))
    rw [hevents]
    exact run_eq_course id now w built.1 events
  intro y
  have hy : y.Balanced c := hbuilt.run id before
  have hrest : x = y.run id after := by
    show start.run id (handled moments) = _
    rw [hsplit, Chronicle.run_append]
  refine ⟨fun hquiet => ?_, fun hphase => hrest.trans (Chronicle.run_down hphase id after), ?_⟩
  · have hstays : y = start := Chronicle.run_waiting hinit hquiet id
    rw [hstays]
    exact ⟨rfl, rfl⟩
  rintro m rest rfl z
  refine ⟨phase_handle id m.now m.writer m.event y.board, fun hevent hphase => ?_, fun hother => ?_,
    fun bs hevent => ⟨fun hnot => ?_, fun hmeant => ?_⟩⟩
  · -- the board goes down, and stays as it is then
    have hz : z = { y with board := { y.board with phase := .down } } := by
      have hnext := Chronicle.next_unserved (x := y) (m := m) (by rw [hevent]; rfl) id
      rwa [hevent, hphase] at hnext
    have hlast : x = z := by
      rw [hrest]
      exact Chronicle.run_down (x := z) (by rw [hz]) id rest
    rw [hlast, hz]
    exact ⟨rfl, rfl⟩
  · show y.arrivals ++ (y.board.arrivals m.event).map _ = _
    have hnone : y.board.arrivals m.event = [] := by
      cases hevent : m.event with
      | frame bs => exact absurd hevent (hother bs)
      | startup | tick | shutdown | terminate => rfl
    rw [hnone]
    exact List.append_nil _
  · have hignores : y.board.serves m.event = false := by
      rw [hevent, serves, Bool.and_eq_false_iff]
      by_cases hphase : y.board.phase = .up
      · exact .inr (Bool.eq_false_iff.2 fun haccepts =>
          hnot ⟨hphase, hy.address ▸ accepts_iff.1 haccepts⟩)
      · exact .inl (beq_eq_false_iff_ne.2 hphase)
    have hstays : y.board.phase.next m.event = y.board.phase := by
      rw [hevent]
      cases y.board.phase <;> rfl
    have hone : y.run id [m] = y :=
      Chronicle.run_silent (by simpa using hignores) (by simpa using hstays) id
    exact hone
  · have harrives : y.board.arrivals m.event = [bs] := by
      rw [hevent]
      exact if_pos ⟨hmeant.1, accepts_iff.2 (hy.address ▸ hmeant.2)⟩
    refine ⟨decide (z.board.dropped ≠ y.board.dropped), ?_⟩
    show y.arrivals ++ (y.board.arrivals m.event).map _ = _
    rw [harrives]
    rfl

/-- A request for the address of the board comes before its start, while it is up
and after its end; another station's comes while it is up.  One reply is written,
and the tick behind the end is left. -/
theorem lifecycle_reply :
    let c : Stack.Settings := {}
    let request : Bytes := List.replicate 6 255 ++
      [18, 52, 86, 120, 154, 188, 8, 6] ++
      [0, 1, 8, 0, 6, 4, 0, 1, 18, 52, 86, 120, 154, 188, 192, 168, 1, 100] ++
      [0, 0, 0, 0, 0, 0, 192, 168, 1, 50] ++ List.replicate 18 0
    let foreign : Bytes := [2, 0, 0, 0, 0, 9] ++ request.drop 6
    let w : Writer := fun _ => some "broken"
    let events : List Event := [.frame request, .startup, .frame request, .frame foreign, .tick,
      .shutdown, .frame request, .terminate, .tick]
    let moments := events.map (Moment.mk 0 w)
    ∃ built, build "eth0" 7 c = .ok built ∧
      let x := Chronicle.run 0 { board := built.1 } (handled moments)
      x.board.phase = .down ∧ x.offered.length = 1 ∧ x.offered = x.sent ∧
        x.arrivals.map (·.lost) = [false] ∧ x.board.dropped = 0 ∧
        (built.1.run 0 0 w events).2 = [.tick] := by
  intro c request foreign w events moments
  have hrun : ((build "eth0" 7 c).toOption.map fun built =>
      let x := Chronicle.run 0 { board := built.1 } (handled moments)
      (x.board.phase, x.offered.length, x.arrivals.map (·.lost))) = some (.down, 1, [false]) := by
    decide +kernel
  cases hbuilt : build "eth0" 7 c with
  | error fault =>
    rw [hbuilt] at hrun
    cases hrun
  | ok built =>
    rw [hbuilt] at hrun
    have hfacts := Option.some.inj hrun
    simp only [Prod.mk.injEq] at hfacts
    obtain ⟨hphase, hlength, hlost⟩ := hfacts
    obtain ⟨hloop, ⟨-, -, hleft⟩, -, ⟨-, hdropped⟩, hsent, -⟩ := lifecycle hbuilt 0 moments
    refine ⟨built, rfl, hphase, hlength, hsent, hlost, ?_, ?_⟩
    · rw [hdropped]
      have hcount := congrArg (List.countP id) hlost
      rwa [List.countP_map] at hcount
    · rw [hloop 0 w events rfl, hleft]
      rfl

end Board
end NetBoard
