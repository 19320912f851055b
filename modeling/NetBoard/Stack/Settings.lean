/-
  NetBoard.Stack.Settings
  ───────────────────────
  **WHAT A STACK IS ASKED TO BE.**

  The addresses, widths, depths and times of a stack, and which of its
  optional parts it has.  Times are in milliseconds.
-/
import NetBoard.Arp.Resolver
import NetBoard.Streamer

namespace NetBoard

/-- The endpoint for bus accesses and the memory on its bus. -/
structure Etherbone.Parameters where
  port : UInt16 := 1234
  bufferDepth : Nat := 4
  /-- The octet address of the memory. -/
  base : UInt32 := 0
  /-- The octets of the memory. -/
  size : Nat := 0x2000
  deriving Repr, DecidableEq, Inhabited

/-- The settings of a stack. -/
structure Stack.Settings where
  mac : MacAddress := ⟨0x10, 0xe2, 0xd5, 0, 0, 0⟩
  /-- The address; without one it is obtained from a server. -/
  ip : Option Ipv4 := some ⟨192, 168, 1, 50⟩
  /-- The lanes of the bus. -/
  width : Nat := 1
  arp : Arp.Parameters := {}
  mtu : Nat := 1530
  withIcmp : Bool := true
  /-- Are datagrams for other addresses received too? -/
  promiscuous : Bool := true
  /-- Does the wire carry preamble and check sequence? -/
  bareWire : Bool := false
  /-- The octet times between two frames on a bare wire. -/
  gap : Nat := 12
  /-- The depth of the pipes between the layers. -/
  depth : Nat := 4
  echoDepth : Nat := 4
  dhcpTimeout : Nat := 1000
  dhcpRetry : Nat := 4000
  etherbone : Option Etherbone.Parameters := some {}
  streamer : Option Streamer.Parameters := none
  deriving Repr, DecidableEq, Inhabited

end NetBoard
