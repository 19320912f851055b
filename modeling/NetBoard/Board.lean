/-
  NetBoard.Board
  ──────────────
  **A BOARD ON AN INTERFACE.**

  A board is a stack attached to a network interface.  It waits for events:
  it comes up, takes the frames meant for it, lets time pass, goes down.  What
  the stack sends is written to the interface; a write that fails loses its
  frame and nothing else.

  Main definitions:

      Board.accepts  — is a frame meant for the board?
      Board.handle   — one event
      Board.run      — events until the end of the channel or of the board
-/
import NetBoard.Stack.Basic

namespace NetBoard

/-! ## §1. States and events. -/

/-- The life of a board. -/
inductive Board.Phase where
  | init
  | up
  | down
  deriving Repr, DecidableEq, Inhabited

/-- The phase in log lines. -/
def Board.Phase.name : Board.Phase → String
  | init => "Init"
  | up => "Up"
  | down => "Down"

/-- What a board is told. -/
inductive Board.Event where
  | startup
  /-- A frame arrived on the interface. -/
  | frame (bs : Bytes)
  /-- Time has passed. -/
  | tick
  | shutdown
  | terminate
  deriving Repr, DecidableEq, Inhabited

/-- A board. -/
structure Board where
  phase : Board.Phase := .init
  interface : String
  /-- The number of the interface. -/
  index : Int
  stack : Stack
  /-- The frames lost because the stack was busy. -/
  dropped : Nat := 0
  deriving Repr, DecidableEq, Inhabited

/-- The writer of an interface: why a frame could not be written, if it could not. -/
abbrev Board.Writer := Bytes → Option String

/-- What handling events did: the board after it, the frames offered to the
writer in order, and the log. -/
structure Board.Effect where
  board : Board
  offered : List Bytes := []
  log : List Log.Line := []
  deriving Repr, DecidableEq, Inhabited

namespace Board

/-- The name under which the event loop logs. -/
def source : String := "fsm"

/-- Build a board. -/
def build (interface : String) (index : Int) (c : Stack.Settings) :
    Except Fault (Board × List Log.Line) := do
  let (stack, log) ← Stack.build c
  return ({ interface, index, stack }, log ++
    [⟨Log.extensive, "main",
      s!"creating new board {c.mac.text} on interface {interface} (ifindex {index})"⟩])

/-- Is the frame meant for the board?  It must have a header, and be sent to
the board or to a group. -/
def accepts (b : Board) (frame : Bytes) : Bool :=
  decide (Ethernet.header.length ≤ frame.length)
    && (frame.take 6 == b.stack.mac.address.octets || frame.head?.any fun o => o &&& 1 == 1)

/-! ## §2. Parts of an event. -/

/-- Let the stack settle. -/
def poll (now : Nat) (b : Board) : Effect :=
  let (stack, _, log) := b.stack.poll now
  { board := { b with stack }, log }

/-- Offer every frame on the wire to the writer. -/
def transmit (w : Writer) (b : Board) : Effect :=
  let wire := b.stack.mac.wireOut
  let frames := wire.items
  let mac := { b.stack.mac with wireOut := { wire with items := [] } }
  { board := { b with stack := { b.stack with mac } }
    offered := frames
    log := frames.filterMap fun frame => (w frame).map fun reason =>
      ⟨Log.medium, source, s!"cannot send frame on {b.interface}: {reason}"⟩ }

/-- Continue with the board after a first part. -/
def Effect.andThen (e : Effect) (f : Board → Effect) : Effect :=
  let next := f e.board
  { board := next.board, offered := e.offered ++ next.offered, log := e.log ++ next.log }

/-- Offer a frame to the wire. -/
def offerWire (b : Board) (frame : Bytes) : Offer × Board :=
  let (answer, wireIn) := b.stack.mac.wireIn.offer frame
  (answer, { b with stack := { b.stack with mac := { b.stack.mac with wireIn } } })

/-- The second offer of a frame: refused again, it is lost. -/
def offerAgain (frame : Bytes) (b : Board) : Effect :=
  match b.offerWire frame with
  | (.sent, b) => { board := b }
  | (_, b) =>
    { board := { b with dropped := b.dropped + 1 }
      log := [⟨Log.medium, source, s!"board on {b.interface} is busy, frame dropped"⟩] }

/-- Take a frame.  If the wire is full the stack gets a chance to drain it first. -/
def receive (now : Nat) (w : Writer) (frame : Bytes) (b : Board) : Effect :=
  if b.accepts frame then
    match b.offerWire frame with
    | (.sent, b) => (b.poll now).andThen (transmit w)
    -- the stack drains the wire before the frame is offered again
    | (.full, b) =>
      (((b.poll now).andThen (offerAgain frame)).andThen (poll now)).andThen (transmit w)
    | (.disconnected, b) => { board := b }
  else { board := b }

/-- Let the stack settle and write what it sends. -/
def refresh (now : Nat) (w : Writer) (b : Board) : Effect := (b.poll now).andThen (transmit w)

/-! ## §3. Events. -/

/-- Enter a phase. -/
def enter (id : Nat) (phase : Phase) (b : Board) : Effect :=
  if phase = b.phase then { board := b }
  else
    { board := { b with phase }
      log := [⟨Log.extensive, source,
        s!"worker thread {id} {b.phase.name} -> {phase.name}"⟩] }

/-- What an event does to a board that is up, and the phase that follows. -/
def handleUp (now : Nat) (w : Writer) (event : Event) (b : Board) : Effect × Phase :=
  match event with
  | .frame bs => (b.receive now w bs, .up)
  | .tick => (b.refresh now w, .up)
  | .shutdown =>
    ({ board := b
       log := [⟨Log.low, source,
         s!"board on {b.interface} going down, {b.stack.stats.text}, {b.dropped} frame(s) dropped"⟩] },
      .down)
  | .startup | .terminate => ({ board := b }, .up)

/-- What an event does to a board that has not started, and the phase that follows. -/
def handleInit (id now : Nat) (w : Writer) (event : Event) (b : Board) : Effect × Phase :=
  match event with
  | .startup =>
    let mac := b.stack.mac.address.text
    let ip := b.stack.localIp.text
    let greeting : Effect :=
      { board := b
        log := [⟨Log.info, "info",
          s!"Starting board {mac} ({ip}) on interface {b.interface} (thread: {id})"⟩] }
    (greeting.andThen (refresh now w), .up)
  | _ => ({ board := b }, .init)

/-- Handle an event.  A board that is down ignores all of them. -/
def handle (id now : Nat) (w : Writer) (event : Event) (b : Board) : Effect :=
  match b.phase with
  | .down => { board := b }
  | .init =>
    let (e, phase) := b.handleInit id now w event
    e.andThen (enter id phase)
  | .up =>
    let (e, phase) := b.handleUp now w event
    e.andThen (enter id phase)

/-- Handle events until the channel is closed or the board is told to end: what
was done, and the events that were not handled. -/
def run (id now : Nat) (w : Writer) (b : Board) (events : List Event) : Effect × List Event :=
  match events with
  | [] =>
    ({ board := b
       log := [⟨Log.high, source, s!"worker thread {id} notification channel closed"⟩] }, [])
  | .terminate :: rest =>
    ({ board := b, log := [⟨Log.high, source, s!"worker thread {id} exited"⟩] }, rest)
  | event :: rest =>
    let e := b.handle id now w event
    let (next, left) := run id now w e.board rest
    (e.andThen fun _ => next, left)

end Board
end NetBoard
