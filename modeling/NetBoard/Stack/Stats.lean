/-
  NetBoard.Stack.Stats
  ────────────────────
  **THE COUNTERS OF A STACK.**

  The counters of all layers, and their form in log lines.
-/
import NetBoard.Arp.Resolver
import NetBoard.Dhcp.Client
import NetBoard.Etherbone.Endpoint
import NetBoard.Ethernet.Mac
import NetBoard.Icmp.Echo
import NetBoard.Ip.Layer
import NetBoard.Streamer
import NetBoard.Udp.Layer

namespace NetBoard

/-- The counters of every layer that a stack has. -/
structure Stack.Stats where
  mac : Ethernet.Mac.Stats
  arp : Arp.Stats
  ip : Ip.Stats
  icmp : Option Icmp.Stats
  udp : Udp.Stats
  dhcp : Option Dhcp.Stats
  etherbone : Option Etherbone.Stats
  streamer : Option Streamer.Stats
  deriving Repr, DecidableEq, Inhabited

/-! ## Named counters. -/

/-- The counters of a crossbar by name. -/
def Crossbar.Stats.named (s : Crossbar.Stats) : List (String × Nat) :=
  [("dispatched", s.dispatched), ("unknown", s.unknown), ("arbitrated", s.arbitrated)]

/-- The counters of a MAC by name. -/
def Ethernet.Mac.Stats.named (s : Ethernet.Mac.Stats) : List (String × Nat) :=
  [("rx_frames", s.rxFrames), ("tx_frames", s.txFrames), ("preamble_errors", s.preambleErrors),
   ("crc_errors", s.crcErrors), ("runts", s.runts), ("truncated", s.truncated)]

/-- The counters of a resolver by name. -/
def Arp.Stats.named (s : Arp.Stats) : List (String × Nat) :=
  [("rx_requests", s.rxRequests), ("rx_replies", s.rxReplies), ("tx_requests", s.txRequests),
   ("tx_replies", s.txReplies), ("invalid", s.invalid), ("dropped_busy", s.droppedBusy),
   ("resolved", s.resolved), ("failed", s.failed)]

/-- The counters of an IP layer by name. -/
def Ip.Stats.named (s : Ip.Stats) : List (String × Nat) :=
  [("rx_packets", s.rxPackets), ("tx_packets", s.txPackets), ("tx_fragments", s.txFragments),
   ("checksum_errors", s.checksumErrors), ("invalid", s.invalid), ("not_for_us", s.notForUs),
   ("fragments_dropped", s.fragmentsDropped), ("target_unreachable", s.targetUnreachable),
   ("tx_oversize", s.txOversize)]

/-- The counters of an echo service by name. -/
def Icmp.Stats.named (s : Icmp.Stats) : List (String × Nat) :=
  [("echo_requests", s.echoRequests), ("echo_replies", s.echoReplies), ("ignored", s.ignored)]

/-- The counters of a UDP layer by name. -/
def Udp.Stats.named (s : Udp.Stats) : List (String × Nat) :=
  [("rx_datagrams", s.rxDatagrams), ("tx_datagrams", s.txDatagrams), ("invalid", s.invalid),
   ("tx_oversize", s.txOversize)]

/-- The counters of a configuration client by name. -/
def Dhcp.Stats.named (s : Dhcp.Stats) : List (String × Nat) :=
  [("discovers", s.discovers), ("requests", s.requests), ("offers", s.offers), ("acks", s.acks),
   ("dropped", s.dropped), ("runts", s.runts), ("timeouts", s.timeouts)]

/-- The counters of a bus endpoint by name. -/
def Etherbone.Stats.named (s : Etherbone.Stats) : List (String × Nat) :=
  [("probes", s.probes), ("records", s.records), ("writes", s.writes), ("reads", s.reads),
   ("replies", s.replies), ("bad_magic", s.badMagic), ("malformed", s.malformed)]

/-- The counters of a streamer by name. -/
def Streamer.Stats.named (s : Streamer.Stats) : List (String × Nat) :=
  [("rx_datagrams", s.rxDatagrams), ("rx_bytes", s.rxBytes), ("rx_filtered", s.rxFiltered),
   ("tx_datagrams", s.txDatagrams), ("tx_bytes", s.txBytes)]

/-- The counters of every layer by name; those of a missing layer are missing. -/
def Stack.Stats.named (s : Stack.Stats) : List (String × Option (List (String × Nat))) :=
  [("mac", some s.mac.named), ("arp", some s.arp.named), ("ip", some s.ip.named),
   ("icmp", s.icmp.map (·.named)), ("udp", some s.udp.named), ("dhcp", s.dhcp.map (·.named)),
   ("etherbone", s.etherbone.map (·.named)), ("streamer", s.streamer.map (·.named))]

/-- All counters in log lines. -/
def Stack.Stats.text (s : Stack.Stats) : String :=
  Text.record "StackStats"
    [("mac", Text.counters "MacStats" s.mac.named),
     ("arp", Text.counters "ArpStats" s.arp.named),
     ("ip", Text.counters "IpStats" s.ip.named),
     ("icmp", Text.optional (s.icmp.map fun c => Text.counters "IcmpStats" c.named)),
     ("udp", Text.counters "UdpStats" s.udp.named),
     ("dhcp", Text.optional (s.dhcp.map fun c => Text.counters "DhcpStats" c.named)),
     ("etherbone", Text.optional (s.etherbone.map fun c => Text.counters "EtherboneStats" c.named)),
     ("streamer", Text.optional (s.streamer.map fun c => Text.counters "StreamerStats" c.named))]

end NetBoard
