/-
  NetBoard.Crossbar
  ─────────────────
  **SHARING A LAYER BETWEEN SUBSCRIBERS.**

  A crossbar stands between a layer and its subscribers, each registered under
  a key: an Ethernet type, an IP protocol or a UDP port.  Received records go
  to the subscriber of their key; records to be sent are taken from the
  subscribers in turn.

  Main definitions:

      Crossbar.register   — a new subscriber, refused if its key is taken
      Crossbar.dispatch   — deliver one received record
      Crossbar.arbitrate  — take one record to send
      Crossbar.step       — both
-/
import NetBoard.Fault
import NetBoard.Outcome
import NetBoard.Pipe

namespace NetBoard

/-- Records that a crossbar can tell apart. -/
class Keyed (α : Type) where
  key : α → UInt16

namespace Crossbar

/-! ## §1. Kinds of keys. -/

/-- What the keys of a crossbar are. -/
inductive Kind where
  | etherType
  | ipProtocol
  | udpPort
  deriving Repr, DecidableEq, Inhabited

namespace Kind

/-- The name of a key in messages. -/
def name : Kind → String
  | etherType => "ethernet type"
  | ipProtocol => "ip protocol"
  | udpPort => "udp port"

/-- The fault of registering a key twice. -/
def taken : Kind → UInt16 → Fault
  | etherType => .etherTypeTaken
  | ipProtocol => .protocolTaken
  | udpPort => .portTaken

end Kind

/-- A subscriber with its pipes. -/
structure Port (α : Type) where
  key : UInt16
  link : Link α
  deriving Repr, DecidableEq, Inhabited

/-- The records a crossbar has handled. -/
structure Stats where
  dispatched : Nat := 0
  unknown : Nat := 0
  arbitrated : Nat := 0
  deriving Repr, DecidableEq, Inhabited

end Crossbar

/-- A dispatcher and arbiter. -/
structure Crossbar (α : Type) where
  kind : Crossbar.Kind
  /-- The depth of every pipe. -/
  depth : Nat
  /-- Received records, to be dispatched. -/
  inbox : Pipe α
  /-- Records to be sent, already arbitrated. -/
  outbox : Pipe α
  /-- A received record whose subscriber had no room. -/
  heldIn : Option α := none
  /-- A record to be sent for which the outbox had no room. -/
  heldOut : Option α := none
  /-- The subscribers in the order they registered. -/
  ports : List (Crossbar.Port α) := []
  /-- The index of the subscriber asked first by the next arbitration. -/
  turn : Nat := 0
  stats : Crossbar.Stats := {}
  deriving Repr, DecidableEq, Inhabited

namespace Crossbar

variable {α : Type}

/-! ## §2. Subscribers. -/

/-- A crossbar without subscribers. -/
def make (kind : Kind) (depth : Nat) : Crossbar α :=
  { kind, depth, inbox := .make depth, outbox := .make depth }

/-- The name under which a crossbar logs. -/
def source : String := "crossbar"

/-- Does a subscriber hold this key? -/
def has (xb : Crossbar α) (key : UInt16) : Bool := xb.ports.any (·.key == key)

/-- The pipes of the subscriber of a key. -/
def link? (xb : Crossbar α) (key : UInt16) : Option (Link α) :=
  (xb.ports.find? (·.key == key)).map (·.link)

/-- Replace the pipes of the subscriber of a key. -/
def setLink (xb : Crossbar α) (key : UInt16) (link : Link α) : Crossbar α :=
  { xb with ports := xb.ports.map fun p => if p.key == key then { p with link } else p }

/-- Add a subscriber.  A key has at most one. -/
def register (xb : Crossbar α) (key : UInt16) : Except Fault (Crossbar α × List Log.Line) :=
  if xb.has key then .error (xb.kind.taken key)
  else
    let port : Port α := ⟨key, .make xb.depth⟩
    .ok ({ xb with ports := xb.ports ++ [port] },
      [⟨Log.extensive, source, s!"{xb.kind.name} {Text.hexTagged 1 key.toNat} registered"⟩])

/-- The subscriber of a key goes. -/
def abandon (xb : Crossbar α) (key : UInt16) : Crossbar α :=
  match xb.link? key with
  | none => xb
  | some link => xb.setLink key link.abandon

/-! ## §3. Reception. -/

/-- Deliver a record to the subscriber of its key, holding it if there is no room. -/
def deliver [Keyed α] (xb : Crossbar α) (item : α) : Outcome (Crossbar α) :=
  let key := Keyed.key item
  match xb.link? key with
  | some link =>
    let (heldIn, inbound) := sendOrHold item link.inbound
    let xb := xb.setLink key { link with inbound }
    .moved { xb with heldIn, stats := { xb.stats with dispatched := xb.stats.dispatched + 1 } }
  | none =>
    .moved { xb with stats := { xb.stats with unknown := xb.stats.unknown + 1 } }
      [⟨Log.medium, source,
        s!"no subscriber for {xb.kind.name} {Text.hexTagged 1 key.toNat}, dropped"⟩]

/-- Take the next received record and deliver it. -/
def dispatchNext [Keyed α] (xb : Crossbar α) : Outcome (Crossbar α) :=
  match xb.inbox.take with
  | none => .idle xb
  | some (item, inbox) => { xb with inbox }.deliver item

/-- Deliver a held record first; while it finds no room nothing else is taken. -/
def dispatch [Keyed α] (xb : Crossbar α) : Outcome (Crossbar α) :=
  match xb.heldIn with
  | none => xb.dispatchNext
  | some item =>
    let key := Keyed.key item
    match xb.link? key with
    -- subscribers stay in the list, so a held record always has one
    | none => { xb with heldIn := none }.dispatchNext
    | some link =>
      match flush (some item) link.inbound with
      | (false, _, _) => .idle xb
      | (true, heldIn, inbound) =>
        let xb := { xb.setLink key { link with inbound } with heldIn }
        (Outcome.moved xb).andThen dispatchNext

/-! ## §4. Transmission. -/

/-- The first subscriber with a record to send, asked in the order of `indices`. -/
def firstReady (ports : List (Port α)) : List Nat → Option (Nat × α × Port α)
  | [] => none
  | i :: rest =>
    match ports[i]? with
    | none => firstReady ports rest
    | some port =>
      match port.link.outbound.take with
      | none => firstReady ports rest
      | some (item, outbound) => some (i, item, { port with link := { port.link with outbound } })

/-- All subscribers, starting with the one whose turn it is. -/
def order (xb : Crossbar α) : List Nat :=
  (List.range xb.ports.length).map fun i => (xb.turn + i) % xb.ports.length

/-- Take one record from the first ready subscriber; the turn passes to the one after it. -/
def arbitrateNext (xb : Crossbar α) : Outcome (Crossbar α) :=
  match firstReady xb.ports xb.order with
  | none => .idle xb
  | some (i, item, port) =>
    let (heldOut, outbox) := sendOrHold item xb.outbox
    .moved { xb with
      ports := xb.ports.set i port
      -- the subscriber just served is asked last
      turn := (i + 1) % xb.ports.length
      stats := { xb.stats with arbitrated := xb.stats.arbitrated + 1 }
      heldOut, outbox }

/-- Send a held record first; while it finds no room nothing else is taken.
The departure of the held record alone is not reported as progress. -/
def arbitrate (xb : Crossbar α) : Outcome (Crossbar α) :=
  match xb.heldOut with
  | none => xb.arbitrateNext
  | some item =>
    match flush (some item) xb.outbox with
    | (false, _, _) => .idle xb
    | (true, heldOut, outbox) => { xb with heldOut, outbox }.arbitrateNext

/-! ## §5. Steps. -/

/-- Dispatch one received record and arbitrate one record to send. -/
def step [Keyed α] (xb : Crossbar α) : Outcome (Crossbar α) :=
  xb.dispatch.andThen arbitrate

end Crossbar
end NetBoard
