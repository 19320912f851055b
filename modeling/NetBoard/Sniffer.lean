/-
  NetBoard.Sniffer
  ────────────────
  **FRAMES IN WORDS.**

  What the sniffer prints: one line that sums a frame up, and a dump of its
  octets in rows of sixteen.
-/
import NetBoard.Arp.Message
import NetBoard.Etherbone.Endpoint
import NetBoard.Icmp.Echo

namespace NetBoard.Sniffer

/-! ## §1. Summaries. -/

/-- An address resolution message. -/
def describeArp (payload : Bytes) : String :=
  let arp := Arp.header.decode payload
  let senderIp := arp.ip "sender_ip"
  match Arp.Operation.ofCode? (arp.get "opcode") with
  | some .request =>
    let targetIp := arp.ip "target_ip"
    s!"ARP who-has {targetIp.text} tell {senderIp.text}"
  | some .reply =>
    let senderMac := arp.mac "sender_mac"
    s!"ARP {senderIp.text} is-at {senderMac.text}"
  | none =>
    let opcode := arp.get "opcode"
    s!"ARP opcode {opcode}"

/-- A control message between two stations. -/
def describeIcmp (hosts : String) (data : Bytes) : String :=
  let type := (Icmp.header.decode data).get "msgtype"
  if type = Icmp.echoRequest then s!"IPv4 {hosts} ICMP echo request"
  else if type = Icmp.echoReply then s!"IPv4 {hosts} ICMP echo reply"
  else s!"IPv4 {hosts} ICMP type {type}"

/-- A datagram between two stations. -/
def describeUdp (hosts : String) (data : Bytes) : String :=
  let udp := Udp.header.decode data
  let src := udp.get "src_port"
  let dst := udp.get "dst_port"
  let head := (data.drop Udp.headerLength).take 2
  let etherbone := decide (head.length = 2) && Bytes.toNatBE head == Etherbone.magic
  s!"IPv4 {hosts} UDP {src} > {dst}" ++ if etherbone then " Etherbone" else ""

/-- An IPv4 datagram. -/
def describeIp (payload : Bytes) : String :=
  let ip := Ip.header.decode payload
  let sender := ip.ip "sender_ip"
  let target := ip.ip "target_ip"
  let hosts := s!"{sender.text} > {target.text}"
  let data := payload.drop Ip.headerLength
  let protocol := ip.get "protocol"
  if protocol = Icmp.protocol.toNat ∧ Icmp.header.length ≤ data.length then describeIcmp hosts data
  else if protocol = Udp.protocol.toNat ∧ Udp.headerLength ≤ data.length then describeUdp hosts data
  else s!"IPv4 {hosts} protocol {protocol}"

/-- What a frame carries. -/
def describePayload (frame : Ethernet.Frame) : String :=
  if frame.type = Ethernet.typeArp ∧ Arp.header.length ≤ frame.payload.length then
    describeArp frame.payload
  else if frame.type = Ethernet.typeIp ∧ Ip.headerLength ≤ frame.payload.length then
    describeIp frame.payload
  else s!"ethertype {Text.hexTagged 4 frame.type.toNat}"

/-- A frame in one line; none if it has no header. -/
def describe (bs : Bytes) : Option String :=
  (Ethernet.Frame.decode? bs).map fun frame =>
    s!"{frame.sender.text} > {frame.target.text} {describePayload frame}, length {bs.length}"

/-! ## §2. Dumps. -/

/-- A row of a dump: the place of its first octet, then its octets. -/
def row (place : Nat) (bs : Bytes) : String :=
  "  " ++ Text.hexPadded 4 place ++ ": "
    ++ " ".intercalate (bs.map fun o => Text.hexPadded 2 o.toNat)

/-- The octets of a frame in rows of sixteen. -/
def dump (bs : Bytes) : String :=
  "\n".intercalate ((bs.words 16).zipIdx.map fun (octets, i) => row (16 * i) octets)

end NetBoard.Sniffer
