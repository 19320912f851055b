/-
  NetBoard.Config.Board
  ─────────────────────
  **THE SECTION OF A BOARD.**

  Each board of a configuration has a section with its interface and whatever
  it wants different from the standard settings.  Reading a section checks the
  kinds of its values; their meaning is checked only when the settings are
  asked for.

  Main definitions:

      BoardSection.read      — the section of a value
      BoardSection.settings  — the settings of the stack
-/
import NetBoard.Config.Address
import NetBoard.Stack.Settings
import NetBoard.Toml.Decode

namespace NetBoard.Config

open Toml (Reader Entries)

/-! ## §1. Sections. -/

/-- The section of an endpoint for bus accesses. -/
structure EtherboneSection where
  port : Option Nat := none
  bufferDepth : Option Nat := none
  deriving Repr, DecidableEq, Inhabited

/-- The section of the memory on the bus. -/
structure SramSection where
  base : Option Nat := none
  size : Option Nat := none
  deriving Repr, DecidableEq, Inhabited

/-- The section of a streamer. -/
structure StreamerSection where
  remote : Option String := none
  port : Option Nat := none
  rxDepth : Option Nat := none
  txDepth : Option Nat := none
  sendLevel : Option Nat := none
  loopback : Option Bool := none
  deriving Repr, DecidableEq, Inhabited

/-- The section of a board. -/
structure BoardSection where
  interface : String
  mac : Option String := none
  /-- The address; without one it is obtained from a server. -/
  ip : Option String := none
  /-- The width of the bus in bits. -/
  bits : Option Nat := none
  arpEntries : Option Nat := none
  arpMaxRequests : Option Nat := none
  arpTimeout : Option Nat := none
  /-- The time a mapping is remembered; zero for ever. -/
  arpCacheTimeout : Option Nat := none
  mtu : Option Nat := none
  withIcmp : Option Bool := none
  promiscuous : Option Bool := none
  bareWire : Option Bool := none
  gap : Option Nat := none
  dhcpTimeout : Option Nat := none
  dhcpRetry : Option Nat := none
  etherbone : Option EtherboneSection := none
  sram : Option SramSection := none
  streamer : Option StreamerSection := none
  deriving Repr, DecidableEq, Inhabited

/-! ## §2. Reading. -/

/-- The section of an endpoint. -/
def EtherboneSection.read : Reader EtherboneSection := fun v => do
  let e ← Reader.record ["port", "buffer_depth"] v
  return {
    port := ← e.optional "port" (Reader.unsigned 16)
    bufferDepth := ← e.optional "buffer_depth" Reader.size }

/-- The section of a memory. -/
def SramSection.read : Reader SramSection := fun v => do
  let e ← Reader.record ["base", "size"] v
  return {
    base := ← e.optional "base" (Reader.unsigned 32)
    size := ← e.optional "size" Reader.size }

/-- The section of a streamer. -/
def StreamerSection.read : Reader StreamerSection := fun v => do
  let e ← Reader.record
    ["remote", "port", "rx_fifo_depth", "tx_fifo_depth", "send_level", "loopback"] v
  return {
    remote := ← e.optional "remote" Reader.text
    port := ← e.optional "port" (Reader.unsigned 16)
    rxDepth := ← e.optional "rx_fifo_depth" Reader.size
    txDepth := ← e.optional "tx_fifo_depth" Reader.size
    sendLevel := ← e.optional "send_level" Reader.size
    loopback := ← e.optional "loopback" Reader.truth }

/-- The fields of a board, in the order in which an array gives them. -/
def BoardSection.fields : List String :=
  ["interface", "mac", "ip", "dw", "arp_entries", "arp_max_requests", "arp_timeout_ms",
   "arp_cache_timeout_ms", "mtu", "with_icmp", "with_ip_broadcast", "with_preamble_crc",
   "interpacket_gap", "dhcp_timeout_ms", "dhcp_retry_ms", "etherbone", "sram", "streamer"]

/-- The section of a board: only its interface must be there. -/
def BoardSection.read : Reader BoardSection := fun v => do
  let e ← Reader.record BoardSection.fields v
  return {
    interface := ← e.required "interface" Reader.text
    mac := ← e.optional "mac" Reader.text
    ip := ← e.optional "ip" Reader.text
    bits := ← e.optional "dw" Reader.size
    arpEntries := ← e.optional "arp_entries" Reader.size
    arpMaxRequests := ← e.optional "arp_max_requests" Reader.size
    arpTimeout := ← e.optional "arp_timeout_ms" Reader.size
    arpCacheTimeout := ← e.optional "arp_cache_timeout_ms" Reader.size
    mtu := ← e.optional "mtu" Reader.size
    withIcmp := ← e.optional "with_icmp" Reader.truth
    promiscuous := ← e.optional "with_ip_broadcast" Reader.truth
    bareWire := ← e.optional "with_preamble_crc" Reader.truth
    gap := ← e.optional "interpacket_gap" Reader.size
    dhcpTimeout := ← e.optional "dhcp_timeout_ms" Reader.size
    dhcpRetry := ← e.optional "dhcp_retry_ms" Reader.size
    etherbone := ← e.optional "etherbone" EtherboneSection.read
    sram := ← e.optional "sram" SramSection.read
    streamer := ← e.optional "streamer" StreamerSection.read }

/-! ## §3. Settings. -/

/-- The address of a section, if it gives one. -/
def address (ip : Option String) : Except Fault (Option Ipv4) :=
  match ip with
  | none => .ok none
  | some s => (Ipv4.parse s).map some

namespace BoardSection

/-- The hardware address. -/
def macAddress (b : BoardSection) : Except Fault MacAddress :=
  match b.mac with
  | none => .ok ({} : Stack.Settings).mac
  | some s => MacAddress.parse s

/-- The internet address. -/
def ipAddress (b : BoardSection) : Except Fault (Option Ipv4) := address b.ip

/-- The lanes of the bus. -/
def lanes (b : BoardSection) : Except Fault Nat :=
  let bits := b.bits.getD 8
  if bits = 8 ∨ bits = 16 ∨ bits = 32 ∨ bits = 64 then .ok (bits / 8)
  else .error (.config s!"invalid datapath width of {bits} bits, expected 8, 16, 32 or 64")

/-- The parameters of the resolver. -/
def arpParameters (b : BoardSection) : Except Fault Arp.Parameters :=
  let standard : Arp.Parameters := {}
  let entries := b.arpEntries.getD standard.entries
  if entries = 0 then .error (.config "at least one ARP entry is needed")
  else .ok {
    entries
    maxRequests := b.arpMaxRequests.getD standard.maxRequests
    timeout := b.arpTimeout.getD standard.timeout
    cacheTimeout := match b.arpCacheTimeout with
      | none => standard.cacheTimeout
      | some 0 => none
      | some time => some time }

/-- The parameters of the endpoint for bus accesses, which its section enables. -/
def etherboneParameters (b : BoardSection) : Option Etherbone.Parameters :=
  let standard : Etherbone.Parameters := {}
  let sram := b.sram.getD {}
  b.etherbone.map fun e => {
    port := (e.port.map UInt16.ofNat).getD standard.port
    bufferDepth := e.bufferDepth.getD standard.bufferDepth
    base := (sram.base.map UInt32.ofNat).getD standard.base
    size := sram.size.getD standard.size }

/-- The parameters of the streamer, which its section enables. -/
def streamerParameters (b : BoardSection) : Except Fault (Option Streamer.Parameters) :=
  let standard : Streamer.Parameters := {}
  match b.streamer with
  | none => .ok none
  | some s => do
    let remote ← address s.remote
    return some {
      remote
      port := (s.port.map UInt16.ofNat).getD standard.port
      rxDepth := s.rxDepth.getD standard.rxDepth
      txDepth := s.txDepth.getD standard.txDepth
      sendLevel := s.sendLevel.getD standard.sendLevel
      loopback := s.loopback.getD standard.loopback }

/-- The settings of the stack, or the first reason why there are none. -/
def settings (b : BoardSection) : Except Fault Stack.Settings := do
  let standard : Stack.Settings := {}
  let mac ← b.macAddress
  let ip ← b.ipAddress
  let width ← b.lanes
  let arp ← b.arpParameters
  let streamer ← b.streamerParameters
  return {
    mac, ip, width, arp
    mtu := b.mtu.getD standard.mtu
    withIcmp := b.withIcmp.getD standard.withIcmp
    promiscuous := b.promiscuous.getD standard.promiscuous
    bareWire := b.bareWire.getD standard.bareWire
    gap := b.gap.getD standard.gap
    depth := standard.depth
    echoDepth := standard.echoDepth
    dhcpTimeout := b.dhcpTimeout.getD standard.dhcpTimeout
    dhcpRetry := b.dhcpRetry.getD standard.dhcpRetry
    etherbone := b.etherboneParameters
    streamer }

end BoardSection
end NetBoard.Config
